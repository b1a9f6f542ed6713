import LaneSwitchboards.Mesh.ControlStream

/-!
# Requests with idle periods between them

The loop of a connection returns when no frame has come for `controlReadTimeout`. The client
keeps its connection all the same, and finds out with its next request: that one fails and drops
the connection, and only the request after it connects again.

The time that counts is that for which the loop waits for a frame: from its reply to one request
until the next one reaches it. This is the `gap` of a request, and the rest of an exchange has no
part in the time-out. The registry and its time are those of the moment.

* `perform_serving`, `perform_returned`: one request.
* `idle_iff`: the sequences of requests of which none fails.
-/

namespace LaneSwitchboards

/-- `CONTROL_READ_TIMEOUT`. -/
def controlReadTimeout : Duration := 30 * 1000000000

/-- The loop after a period in which it waits for a frame, and whether the connection is `broken`
if it returns. -/
def Handler.idle (gap : Duration) (broken : Bool) : Handler → Handler
  | .serving => if controlReadTimeout ≤ gap then .returned broken else .serving
  | .returned broken => .returned broken

/-- A call, and the period before it in which the loop of the connection waits for its frame. -/
structure TimedCall where
  gap : Duration
  broken : Bool
  call : ClientCall
  registry : MeshRegistry
  now : ℕ
  /-- The records that the registry lists. -/
  records : List ServiceRecord

namespace MeshRegistryClient

variable (codec : ControlCodec)

/-- `register`, which is also `renew`. -/
def register (client : MeshRegistryClient) (reg : MeshRegistry) (now : ℕ)
    (record : ServiceRecord) : Except ControlError Unit × MeshRegistryClient × MeshRegistry :=
  match client.request codec reg now [] (.register record) with
  | (.ok .pong, client, reg) => (.ok (), client, reg)
  | (.ok _, client, reg) => (.error .unexpectedReply, client, reg)
  | (.error e, client, reg) => (.error e, client, reg)

/-- The client after a period without a request. -/
def idle (client : MeshRegistryClient) (gap : Duration) (broken : Bool) : MeshRegistryClient :=
  ⟨client.stream.map (·.idle gap broken)⟩

/-- A call after its idle period. `sync_mesh` fails as `list` does. -/
def perform (client : MeshRegistryClient) (r : TimedCall) :
    Except ControlError Unit × MeshRegistryClient :=
  match r.call with
  | .register record =>
    let (result, client, _) := (client.idle r.gap r.broken).register codec r.registry r.now record
    (result, client)
  | .list =>
    let (result, client, _) := (client.idle r.gap r.broken).list codec r.registry r.now r.records
    (result.map fun _ => (), client)

/-- What the calls return. -/
def results : MeshRegistryClient → List TimedCall → List (Except ControlError Unit)
  | _, [] => []
  | client, r :: rs => (client.perform codec r).1 :: results (client.perform codec r).2 rs

variable {codec} {client : MeshRegistryClient} {r : TimedCall}

/-- A request on a stale connection fails, and drops it. -/
theorem perform_returned (codec : ControlCodec) {broken : Bool}
    (h : (client.idle r.gap r.broken).conn = .returned broken) :
    ∃ e, client.perform codec r = (.error e, ⟨none⟩) := by
  unfold perform
  cases r.call with
  | register record =>
    cases hbody : codec.writeControl (.register record) with
    | error e => exact ⟨e, by simp [register, request, hbody]⟩
    | ok body => exact ⟨_, by simp only [register, request, hbody, h]; rfl⟩
  | list =>
    cases hbody : codec.writeControl .list with
    | error e => exact ⟨e, by simp [list, request, hbody, Except.map]⟩
    | ok body => exact ⟨_, by simp only [list, request, hbody, h, Except.map]; rfl⟩

/-- A request that does not fit a frame fails. -/
theorem perform_not_fits {e : ControlError} (h : codec.writeControl r.call.msg = .error e) :
    client.perform codec r = (.error e, ⟨none⟩) := by
  unfold perform
  cases hcall : r.call with
  | register record =>
    rw [hcall] at h
    simp [register, request, show codec.writeControl (.register record) = .error e from h]
  | list =>
    rw [hcall] at h
    simp [list, request, show codec.writeControl .list = .error e from h, Except.map]

/-- A request whose reply fits a frame returns it, and keeps the connection. -/
theorem request_serving (hcodec : codec.Lawful) {reg reg' : MeshRegistry} {now : ℕ}
    {records : List ServiceRecord} {msg reply : MeshControlMsg} {body answer : List UInt8}
    (h : client.conn = .serving) (hbody : codec.writeControl msg = .ok body)
    (hhandle : reg.handle now records msg = (reg', some reply))
    (hanswer : codec.writeControl reply = .ok answer) :
    client.request codec reg now records msg = (.ok reply, ⟨some .serving⟩, reg') := by
  have hturn : codec.handleFrame reg now records body = (reg', _) :=
    ControlCodec.handleFrame_reply (hcodec.readControl hbody) hhandle
  simp only [request, hbody, h, hturn, hanswer, hcodec.readControl hanswer]

/-- A call that is served returns, and keeps the connection. -/
theorem perform_serving (hcodec : codec.Lawful) (h : (client.idle r.gap r.broken).conn = .serving)
    {body : List UInt8} (hbody : codec.writeControl r.call.msg = .ok body)
    (hfits : r.call = .list → codec.Fits r.records) :
    client.perform codec r = (.ok (), ⟨some .serving⟩) := by
  unfold perform
  cases hcall : r.call with
  | register record =>
    rw [hcall] at hbody
    have hrequest : (client.idle r.gap r.broken).request codec r.registry r.now []
        (.register record) = (.ok .pong, ⟨some .serving⟩, _) :=
      request_serving hcodec h hbody rfl hcodec.writeControl_pong
    simp only [register, hrequest]
  | list =>
    rw [hcall] at hbody
    obtain ⟨answer, hencode⟩ := hfits hcall
    have hrequest : (client.idle r.gap r.broken).request codec r.registry r.now r.records .list =
        (.ok (.listReply r.records), ⟨some .serving⟩, _) :=
      request_serving hcodec h hbody rfl (ControlCodec.writeControl_eq_ok.mpr hencode)
    simp only [list, hrequest]
    rfl

/-- A connection goes stale in a period of `controlReadTimeout` or more. -/
theorem conn_idle_serving (gap : Duration) (broken : Bool) :
    ((⟨some .serving⟩ : MeshRegistryClient).idle gap broken).conn =
      if controlReadTimeout ≤ gap then .returned broken else .serving := rfl

/-- **Of a client with a connection, no request fails** iff every period is short and every
request fits a frame. -/
theorem results_serving_iff (hcodec : codec.Lawful) {rs : List TimedCall}
    (hfits : ∀ r ∈ rs, r.call = .list → codec.Fits r.records) :
    (∀ result ∈ results codec ⟨some .serving⟩ rs, result = .ok ()) ↔
      ∀ r ∈ rs, r.gap < controlReadTimeout ∧ ∃ body, codec.writeControl r.call.msg = .ok body := by
  induction rs with
  | nil => simp [results]
  | cons r rs ih =>
    have ih := ih fun r' hr' => hfits r' (List.mem_cons_of_mem r hr')
    rw [results, List.forall_mem_cons, List.forall_mem_cons]
    have hconn := conn_idle_serving r.gap r.broken
    by_cases hgap : controlReadTimeout ≤ r.gap
    · -- the first stale request fails, whatever comes after it
      rw [if_pos hgap] at hconn
      obtain ⟨e, he⟩ := perform_returned codec hconn
      simp [he, Nat.not_lt.mpr hgap]
    · rw [if_neg hgap] at hconn
      cases hbody : codec.writeControl r.call.msg with
      | error e => simp [perform_not_fits hbody]
      | ok body =>
        rw [perform_serving hcodec hconn hbody (hfits r List.mem_cons_self), ih]
        simp [Nat.not_le.mp hgap]

/-- **No request fails** iff every period after the first request is shorter than the time-out of
the loop, and every request fits a frame. -/
theorem idle_iff (hcodec : codec.Lawful) {rs : List TimedCall}
    (hfits : ∀ r ∈ rs, r.call = .list → codec.Fits r.records) :
    (∀ result ∈ results codec ⟨none⟩ rs, result = .ok ()) ↔
      (∀ r ∈ rs.tail, r.gap < controlReadTimeout) ∧
        ∀ r ∈ rs, ∃ body, codec.writeControl r.call.msg = .ok body := by
  cases rs with
  | nil => simp [results]
  | cons r rs =>
    have hrest := results_serving_iff hcodec fun r' hr' => hfits r' (List.mem_cons_of_mem r hr')
    rw [results, List.forall_mem_cons, List.forall_mem_cons, List.tail_cons]
    have hconn : ((⟨none⟩ : MeshRegistryClient).idle r.gap r.broken).conn = .serving := rfl
    cases hbody : codec.writeControl r.call.msg with
    | error e => simp [perform_not_fits hbody]
    | ok body =>
      rw [perform_serving hcodec hconn hbody (hfits r List.mem_cons_self), hrest]
      constructor
      · rintro ⟨-, h⟩
        exact ⟨fun r' hr' => (h r' hr').1, ⟨body, rfl⟩, fun r' hr' => (h r' hr').2⟩
      · rintro ⟨hgap, -, h⟩
        exact ⟨rfl, fun r' hr' => ⟨hgap r' hr', h r' hr'⟩⟩

/-- A listing of the empty registry, after a period. -/
def listAfter (gap : Duration) : TimedCall := ⟨gap, true, .list, .new, 0, []⟩

/-- The codec of listings of the empty registry. -/
def emptyCodec : ControlCodec := tableCodec [.list, .listReply [], .pong]

theorem lawful_emptyCodec : emptyCodec.Lawful :=
  lawful_tableCodec (by decide) (by decide) (by decide)

theorem fits_emptyCodec : emptyCodec.Fits [] := by decide +kernel

/-- Two listings, the second 29 s after the first. -/
theorem idle_iff_short :
    results emptyCodec ⟨none⟩ [listAfter 0, listAfter 29000000000] = List.replicate 2 (.ok ()) := by
  refine List.eq_replicate_iff.mpr ⟨rfl, (idle_iff lawful_emptyCodec ?_).mpr ⟨by decide, ?_⟩⟩
  · simp [listAfter, fits_emptyCodec]
  · have hbody := lawful_emptyCodec.writeControl_list
    simp [listAfter, ClientCall.msg, hbody]

/-- **A stale connection is not replaced within the request**: a listing 30 s after another fails,
and the next one succeeds. -/
theorem stale_connection :
    (results emptyCodec ⟨none⟩ [listAfter 0, listAfter controlReadTimeout, listAfter 0] =
      [.ok (), .error .io, .ok ()]) ∧ emptyCodec.Fits [] :=
  ⟨by decide +kernel, fits_emptyCodec⟩

end MeshRegistryClient

end LaneSwitchboards
