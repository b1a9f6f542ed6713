import LaneSwitchboards.Mesh.ControlJson

/-!
# Listing the registry over the control plane

Every `Register` is bounded by the size of a frame on its own, and so is the reply to a `List`,
which has them all.

* `list_iff`: a client gets the records whose lease has not run out iff its connection was not
  closed and the reply fits a frame.
* `Growing.not_fits`: beyond some number of records no reply fits.
-/

namespace LaneSwitchboards

/-! ### The reply to a List request -/

namespace MeshRegistry

variable {reg : MeshRegistry} {now : ℕ} {records : List ServiceRecord}

/-- **A listing has the records whose lease has not run out**, each once. -/
theorem Lists.spec (h : reg.Lists now records) (hreg : reg.Keyed) :
    records.Nodup ∧ ∀ r, r ∈ records ↔
      reg.records.lookup r.key = some r ∧ recordExpired r now reg.ttl = false := by
  refine ⟨(h.nodup hreg).of_map _, fun r => ?_⟩
  obtain ⟨l, hl, rfl⟩ := h
  rw [List.mem_filter, Bool.not_eq_true', and_congr_left_iff]
  refine fun _ => hl.mem_iff.trans ⟨?_, fun hr => ⟨r.key, hr⟩⟩
  rintro ⟨k, hk⟩
  exact hreg k r hk ▸ hk

end MeshRegistry

namespace MeshRegistryClient

variable {codec : ControlCodec} {client : MeshRegistryClient} {reg : MeshRegistry} {now : ℕ}
  {records : List ServiceRecord}

/-- **What a client gets**: the listing of the registry, or an error where its connection was
closed or the reply is refused. -/
theorem list_eq (h : codec.Lawful) (client : MeshRegistryClient) :
    (client.list codec reg now records).1 =
      if client.conn = .serving ∧ codec.Fits records then .ok records
      else .error client.conn.lost := by
  have hlist := h.writeControl_list
  have hturn : codec.handleFrame reg now records "\"List\"".toUTF8.data.toList = (reg, _) :=
    ControlCodec.handleFrame_reply (h.readControl hlist) rfl
  cases hconn : client.conn with
  | returned broken => simp [MeshRegistryClient.list, request, hlist, hconn]
  | serving =>
    by_cases hfits : codec.Fits records
    · obtain ⟨body, hbody⟩ := hfits
      have hreply := ControlCodec.writeControl_eq_ok.mpr hbody
      rw [if_pos ⟨rfl, body, hbody⟩]
      simp only [MeshRegistryClient.list, request, hlist, hconn, hturn, hreply,
        h.readControl hreply]
    · have hreply : ∀ body, codec.writeControl (.listReply records) ≠ .ok body :=
        fun body hbody => hfits ⟨body, ControlCodec.writeControl_eq_ok.mp hbody⟩
      rw [if_neg fun hand => hfits hand.2]
      simp only [MeshRegistryClient.list, request, hlist, hconn, hturn]
      cases hbody : codec.writeControl (.listReply records) with
      | error e => rfl
      | ok body => exact absurd hbody (hreply body)

/-- **A client gets exactly the records whose lease has not run out** iff its connection was not
closed and the reply fits a frame. -/
theorem list_iff (hcodec : codec.Lawful) (hreg : codec.Served reg) (hlist : reg.Lists now records)
    (client : MeshRegistryClient) :
    (∃ reply, (client.list codec reg now records).1 = .ok reply ∧ reply.Nodup ∧
      ∀ r, r ∈ reply ↔
        reg.records.lookup r.key = some r ∧ recordExpired r now reg.ttl = false) ↔
    client.conn = .serving ∧ codec.Fits records := by
  rw [list_eq hcodec]
  constructor
  · rintro ⟨reply, hreply, -⟩
    by_contra hnot
    rw [if_neg hnot] at hreply
    cases hreply
  · intro hfits
    rw [if_pos hfits]
    exact ⟨records, rfl, hlist.spec (hcodec.keyed hreg)⟩

/-- An instance that listens at a local port. -/
def localInstance (service instanceId : String) (registeredAt : ℕ) : ServiceRecord :=
  ⟨service, instanceId, "127.0.0.1:9000", instanceId, registeredAt⟩

/-- One instance registers, and a client lists it ten seconds later. -/
theorem list_one :
    let codec := tableCodec [.register (localInstance "orders" "a" 0), .list, .pong,
      .listReply [localInstance "orders" "a" 100]]
    let reg := MeshRegistry.new.register (localInstance "orders" "a" 0) 100
    ∃ reply, ((⟨none⟩ : MeshRegistryClient).list codec reg 110
        [localInstance "orders" "a" 100]).1 = .ok reply ∧ reply.Nodup ∧
      ∀ r, r ∈ reply ↔ reg.records.lookup r.key = some r ∧ recordExpired r 110 reg.ttl = false := by
  intro codec reg
  have hcodec : codec.Lawful := lawful_tableCodec (by decide +kernel) (by decide) (by decide)
  have hreg : codec.Served reg :=
    ControlCodec.served_new.register hcodec rfl (by decide +kernel) 100
  have hlist : reg.Lists 110 [localInstance "orders" "a" 100] :=
    ⟨[localInstance "orders" "a" 100], rfl, by decide⟩
  exact (list_iff hcodec hreg hlist ⟨none⟩).mpr ⟨rfl, by decide +kernel⟩

end MeshRegistryClient

/-! ### Replies that do not fit -/

namespace ControlCodec

variable {codec : ControlCodec} {records : List ServiceRecord}

/-- A longer list of records has a longer body. -/
def Growing (codec : ControlCodec) : Prop :=
  ∀ records r body, codec.encode (.listReply (records ++ [r])) = some body →
    ∃ body', codec.encode (.listReply records) = some body' ∧ body'.length < body.length

/-- A body has a byte at least for each record. -/
theorem Growing.length_le (h : codec.Growing) {body : List UInt8}
    (hbody : codec.encode (.listReply records) = some body) : records.length ≤ body.length := by
  induction records using List.reverseRecOn generalizing body with
  | nil => exact Nat.zero_le _
  | append_singleton records r ih =>
    obtain ⟨body', hbody', hlt⟩ := h records r body hbody
    have hle := ih hbody'
    rw [List.length_append, List.length_singleton]
    omega

/-- **Beyond some number of records no reply fits a frame**, whatever the records are. -/
theorem Growing.not_fits (h : codec.Growing) (hlen : maxControlFrame < records.length) :
    ¬ codec.Fits records := by
  rintro ⟨body, hbody, hle⟩
  have hrecords := h.length_le hbody
  omega

end ControlCodec

namespace MeshRegistryClient

/-- A service with a name of so many letters. -/
def wideService (n : ℕ) : String := String.ofList (List.replicate n 'x')

theorem length_wideService (n : ℕ) (instanceId : String) (registeredAt : ℕ) :
    (utf8 (localInstance (wideService n) instanceId registeredAt).json).length =
      n + 14 + (utf8 (localInstance "" instanceId registeredAt).jsonRest).length := by
  have hx : (List.replicate n 'x').flatMap escapeChar = List.replicate n 'x' := by
    have hescape : escapeChar 'x' = ['x'] := by decide
    rw [List.flatMap_replicate, hescape, List.flatten_replicate_singleton]
  have hutf8 : (utf8 (List.replicate n 'x')).length = n := by
    have hencode : String.utf8EncodeChar 'x' = [0x78] := by decide
    rw [utf8, List.flatMap_replicate, hencode, List.flatten_replicate_singleton,
      List.length_replicate]
  have hquote : (utf8 "\"".toList).length = 1 := by decide
  have htext : (wideService n).toList = List.replicate n 'x' := String.toList_ofList
  have hservice : (utf8 (jsonString (wideService n).toList)).length = n + 2 := by
    rw [jsonString, htext, hx, length_utf8_append,
      length_utf8_append, hutf8, hquote]
    omega
  have hrest : (localInstance (wideService n) instanceId registeredAt).jsonRest =
      (localInstance "" instanceId registeredAt).jsonRest := rfl
  rw [length_json, hrest, localInstance, hservice]
  omega

/-- Two instances of a service with a wide name, as they register and as they are stored. -/
theorem length_wide_messages (n : ℕ) :
    (MeshControlMsg.register (localInstance (wideService n) "a" 0)).body.length = n + 103 ∧
    (MeshControlMsg.register (localInstance (wideService n) "bb" 0)).body.length = n + 105 ∧
    (MeshControlMsg.listReply [localInstance (wideService n) "bb" 1,
      localInstance (wideService n) "a" 1]).body.length = 2 * n + 199 := by
  have ha : (utf8 (localInstance "" "a" 0).jsonRest).length = 76 := by decide +kernel
  have ha' : (utf8 (localInstance "" "a" 1).jsonRest).length = 76 := by decide +kernel
  have hb : (utf8 (localInstance "" "bb" 0).jsonRest).length = 78 := by decide +kernel
  have hb' : (utf8 (localInstance "" "bb" 1).jsonRest).length = 78 := by decide +kernel
  have hcomma : (utf8 ",".toList).length = 1 := by decide
  refine ⟨?_, ?_, ?_⟩
  · rw [length_body_register, length_wideService, ha]
  · rw [length_body_register, length_wideService, hb]
  · rw [length_body_listReply, List.map_cons, List.map_singleton, commaSeparated,
      List.flatMap_singleton, length_utf8_append, length_utf8_append, length_wideService,
      length_wideService, ha', hb', hcomma]
    omega

/-- An instance whose service has a name of 40000 letters. -/
def wideInstance (instanceId : String) (registeredAt : ℕ) : ServiceRecord :=
  localInstance (wideService 40000) instanceId registeredAt

/-- The registry after two such instances have registered. -/
def wideRegistry : MeshRegistry :=
  (MeshRegistry.new.register (wideInstance "a" 0) 1).register (wideInstance "bb" 0) 1

/-- Their messages, and what a `List` writes. -/
def wideTable : List MeshControlMsg :=
  [.register (wideInstance "a" 0), .register (wideInstance "bb" 0), .list, .pong,
    .listReply [wideInstance "bb" 1, wideInstance "a" 1]]

theorem lawful_wideTable : (tableCodec wideTable).Lawful := by
  obtain ⟨ha, hb, hreply⟩ := length_wide_messages 40000
  have hlist : MeshControlMsg.list.body.length = 6 := by decide
  have hpong : MeshControlMsg.pong.body.length = 6 := by decide
  have hne : ∀ {msg msg' : MeshControlMsg}, msg.body.length ≠ msg'.body.length →
      msg.body ≠ msg'.body := fun h heq => h (congrArg List.length heq)
  refine lawful_tableCodec ?_ (by simp [wideTable]) (by simp [wideTable])
  simp only [wideTable, wideInstance, List.map_cons, List.map_nil, List.nodup_cons,
    List.mem_cons, List.not_mem_nil, or_false, not_or, not_false_eq_true, List.nodup_nil, and_true]
  refine ⟨⟨hne ?_, hne ?_, hne ?_, hne ?_⟩, ⟨hne ?_, hne ?_, hne ?_⟩, ⟨by decide, hne ?_⟩,
    hne ?_⟩ <;> omega

theorem lists_wideRegistry :
    wideRegistry.Lists 1 [wideInstance "bb" 1, wideInstance "a" 1] := by
  have hkey : (wideInstance "bb" 0).key ≠ (wideInstance "a" 0).key :=
    fun h => absurd (congrArg Prod.snd h) (by decide)
  have hempty : ListsValues [] (∅ : HashMap (String × String) ServiceRecord) := rfl
  have hfirst := hempty.insert (k := (wideInstance "a" 0).key) (v := wideInstance "a" 1) rfl
  have hsecond := hfirst.insert (k := (wideInstance "bb" 0).key) (v := wideInstance "bb" 1) (by
    rw [lookup_insert_eq_ite, if_neg hkey]
    rfl)
  exact ⟨_, hsecond, rfl⟩

/-- Two instances register, each with a frame of 40 kB, and no client can list them. -/
theorem list_fails :
    (tableCodec wideTable).Lawful ∧ (tableCodec wideTable).Served wideRegistry ∧
    wideRegistry.Lists 1 [wideInstance "bb" 1, wideInstance "a" 1] ∧
    ∀ client : MeshRegistryClient,
      (client.list (tableCodec wideTable) wideRegistry 1
        [wideInstance "bb" 1, wideInstance "a" 1]).1 = .error client.conn.lost := by
  obtain ⟨ha, hb, hreply⟩ := length_wide_messages 40000
  have hencode : ∀ msg ∈ wideTable, (tableCodec wideTable).encode msg = some msg.body :=
    fun msg hmem => if_pos hmem
  have hcodec := lawful_wideTable
  have hfirst := ControlCodec.served_new.register hcodec (hencode _ List.mem_cons_self)
    (by rw [wideInstance, ha]; decide) 1
  have hsecond := hfirst.register hcodec
    (hencode (.register (wideInstance "bb" 0)) (by simp [wideTable]))
    (by rw [wideInstance, hb]; decide) 1
  refine ⟨hcodec, hsecond, lists_wideRegistry, fun client => ?_⟩
  rw [list_eq hcodec, if_neg]
  rintro ⟨-, body, hbody, hle⟩
  rw [hencode _ (by simp [wideTable])] at hbody
  obtain rfl := Option.some.inj hbody
  rw [wideInstance, wideInstance, hreply] at hle
  exact absurd hle (by decide)

end MeshRegistryClient

end LaneSwitchboards
