import LaneSwitchboards.Cluster.Placement
import Mathlib.Data.List.TakeWhile

/-!
# Socket addresses

What `try_from_socket_addr` accepts, and that it reads back what `socket_addr` writes. An address
is split at its last colon, so the host is arbitrary: it may be empty or contain colons itself.
The port may be written with a plus sign and leading zeros; the address of the result writes it
without, and is read as the same node.

* `rsplitOnceColon_eq_some`, `parseU16_eq_some`: the split at the last colon, and which texts are
  ports.
* `tryFromSocketAddr_eq_ok`: so which addresses are accepted.
* `socketAddr_roundTrip`: the round trip, and what is rejected.
-/

namespace LaneSwitchboards

open HashRing (colon_notMem_toString)

/-- The text of a port: an optional plus sign, then at least one decimal digit, of this value. -/
def IsPort (s : List Char) (port : U16) : Prop :=
  ∃ digits, (s = digits ∨ s = '+' :: digits) ∧ digits ≠ [] ∧
    (∀ c ∈ digits, c.isDigit = true) ∧ Nat.ofDigitChars 10 digits 0 = port

/-- `socket_addr`: host and port. -/
def RingNode.socketAddr (node : RingNode) : String := node.host ++ ":" ++ toString node.port.val

/-! ### The split -/

section Split

variable {s x y : List Char}

/-- A split at the last colon. -/
theorem rsplitOnceColon_append (hy : ':' ∉ y) : rsplitOnceColon (x ++ ':' :: y) = some (x, y) := by
  have hcolon : ∀ c ∈ y.reverse, decide (c ≠ ':') = true := by
    intro c hc
    refine decide_eq_true fun heq => hy ?_
    rw [← heq]
    exact List.mem_reverse.mp hc
  have hreverse : (x ++ ':' :: y).reverse = y.reverse ++ ':' :: x.reverse := by simp
  have htake : (y.reverse ++ ':' :: x.reverse).takeWhile (· ≠ ':') = y.reverse := by
    rw [List.takeWhile_append_of_pos hcolon]
    simp
  have hdrop : (y.reverse ++ ':' :: x.reverse).dropWhile (· ≠ ':') = ':' :: x.reverse := by
    rw [List.dropWhile_append_of_pos hcolon]
    simp
  rw [rsplitOnceColon, hreverse, List.span_eq_takeWhile_dropWhile, htake, hdrop]
  simp

/-- Without a colon there is no split. -/
theorem rsplitOnceColon_eq_none (hs : ':' ∉ s) : rsplitOnceColon s = none := by
  have hdrop : s.reverse.dropWhile (· ≠ ':') = [] := by
    rw [List.dropWhile_eq_nil_iff]
    intro c hc
    refine decide_eq_true fun heq => hs ?_
    rw [← heq]
    exact List.mem_reverse.mp hc
  rw [rsplitOnceColon, List.span_eq_takeWhile_dropWhile, hdrop]

/-- A text with a colon has a last one. -/
theorem exists_last_colon (hs : ':' ∈ s) : ∃ x y, s = x ++ ':' :: y ∧ ':' ∉ y := by
  induction s with
  | nil => cases hs
  | cons c s ih =>
    by_cases hrest : ':' ∈ s
    · obtain ⟨x, y, rfl, hy⟩ := ih hrest
      exact ⟨c :: x, y, rfl, hy⟩
    · rcases List.mem_cons.mp hs with rfl | hs
      · exact ⟨[], s, rfl, hrest⟩
      · exact absurd hs hrest

/-- **The split** is at the last colon. -/
theorem rsplitOnceColon_eq_some :
    rsplitOnceColon s = some (x, y) ↔ s = x ++ ':' :: y ∧ ':' ∉ y := by
  constructor
  · intro h
    by_cases hs : ':' ∈ s
    · obtain ⟨x', y', rfl, hy⟩ := exists_last_colon hs
      rw [rsplitOnceColon_append hy] at h
      cases h
      exact ⟨rfl, hy⟩
    · rw [rsplitOnceColon_eq_none hs] at h
      cases h
  · rintro ⟨rfl, hy⟩
    exact rsplitOnceColon_append hy

end Split

/-! ### The port -/

section Port

variable {s digits : List Char} {port : U16}

/-- The digits of a port, after its sign. -/
theorem parseU16_of_digits (hs : s = digits ∨ s = '+' :: digits) (hne : digits ≠ [])
    (hdigits : ∀ c ∈ digits, c.isDigit = true) :
    parseU16 s = if h : Nat.ofDigitChars 10 digits 0 < 2 ^ 16 then
      some ⟨Nat.ofDigitChars 10 digits 0, h⟩ else none := by
  unfold parseU16
  extract_lets stripped n
  have hstripped : stripped = digits := by
    rcases hs with rfl | rfl
    · dsimp only [stripped]
      split
      · exact absurd (hdigits '+' List.mem_cons_self) (by decide)
      · rfl
    · rfl
  have hn : n = Nat.ofDigitChars 10 digits 0 := by
    rw [Nat.ofDigitChars_eq_foldl, ← hstripped]
  rw [hstripped, if_pos ⟨hne, List.all_eq_true.mpr hdigits⟩]
  simp only [hn]

/-- **Which texts are ports.** -/
theorem parseU16_eq_some : parseU16 s = some port ↔ IsPort s port := by
  constructor
  · intro h
    obtain ⟨digits, hs, hdigits⟩ : ∃ digits, (s = digits ∨ s = '+' :: digits) ∧
        digits ≠ [] ∧ ∀ c ∈ digits, c.isDigit = true := by
      unfold parseU16 at h
      dsimp only at h
      split_ifs at h with hvalid hlt
      refine ⟨_, ?_, hvalid.1, List.all_eq_true.mp hvalid.2⟩
      split
      · exact Or.inr rfl
      · exact Or.inl rfl
    rw [parseU16_of_digits hs hdigits.1 hdigits.2] at h
    split_ifs at h with hlt
    cases h
    exact ⟨digits, hs, hdigits.1, hdigits.2, rfl⟩
  · rintro ⟨digits, hs, hne, hdigits, hvalue⟩
    rw [parseU16_of_digits hs hne hdigits, dif_pos (by rw [hvalue]; exact port.isLt)]
    exact congrArg some (Fin.ext hvalue)

/-- A port as it is written. -/
theorem isPort_toString (port : U16) : IsPort (toString port.val).toList port := by
  rw [Nat.toString_eq_ofList_toDigits, String.toList_ofList]
  exact ⟨_, Or.inl rfl, Nat.toDigits_ne_nil,
    fun c hc => Nat.isDigit_of_mem_toDigits (by decide) (by decide) hc,
    Nat.ofDigitChars_ten_toDigits⟩

end Port

/-! ### Addresses -/

namespace RingNode

variable {id addr : String} {node : RingNode}

/-- The address of a node, as a list of characters. -/
theorem toList_socketAddr (node : RingNode) : node.socketAddr.toList =
    node.host.toList ++ ':' :: (toString node.port.val).toList := by
  simp [socketAddr]

/-- **Which addresses are accepted**, as which nodes: the text after the last colon is the port, and
the text before it is the host. -/
theorem tryFromSocketAddr_eq_ok : tryFromSocketAddr id addr = .ok node ↔
    node.id = id ∧ ∃ portStr, addr.toList = node.host.toList ++ ':' :: portStr ∧
      ':' ∉ portStr ∧ IsPort portStr node.port := by
  rw [tryFromSocketAddr, parseHostPort]
  constructor
  · intro h
    cases hsplit : rsplitOnceColon addr.toList with
    | none =>
      rw [hsplit] at h
      cases h
    | some parts =>
      obtain ⟨host, portStr⟩ := parts
      obtain ⟨haddr, hcolon⟩ := rsplitOnceColon_eq_some.mp hsplit
      cases hport : parseU16 portStr with
      | none =>
        rw [hsplit] at h
        simp only [hport] at h
        cases h
      | some port =>
        rw [hsplit] at h
        simp only [hport] at h
        cases h
        exact ⟨rfl, portStr, by rw [haddr, String.toList_ofList], hcolon,
          parseU16_eq_some.mp hport⟩
  · rintro ⟨rfl, portStr, haddr, hcolon, hport⟩
    rw [rsplitOnceColon_eq_some.mpr ⟨haddr, hcolon⟩]
    simp only [parseU16_eq_some.mpr hport, Except.map, String.ofList_toList]

/-- **A node reads back from its address.** -/
theorem tryFromSocketAddr_socketAddr (node : RingNode) :
    tryFromSocketAddr node.id node.socketAddr = .ok node :=
  tryFromSocketAddr_eq_ok.mpr ⟨rfl, _, toList_socketAddr node, colon_notMem_toString node.port.val,
    isPort_toString node.port⟩

/-- **The round trip of addresses.** For arbitrary ids, hosts and ports a node reads back from its
address. An address that is accepted, however its port is written, gives the same node as the
address of this node. An address is rejected that has no colon, or has no port after its last
one. -/
theorem socketAddr_roundTrip (id : String) :
    (∀ host port, tryFromSocketAddr id (socketAddr ⟨id, host, port⟩) = .ok ⟨id, host, port⟩) ∧
    (∀ addr node, tryFromSocketAddr id addr = .ok node →
      tryFromSocketAddr id node.socketAddr = .ok node) ∧
    (∀ addr : String, ':' ∉ addr.toList → tryFromSocketAddr id addr = .error (.missingPort addr)) ∧
    ∀ host portStr : String, ':' ∉ portStr.toList → (∀ port, ¬ IsPort portStr.toList port) →
      tryFromSocketAddr id (host ++ ":" ++ portStr) =
        .error (.invalidPort portStr (host ++ ":" ++ portStr)) := by
  refine ⟨fun host port => tryFromSocketAddr_socketAddr ⟨id, host, port⟩,
    fun addr node h => ?_, fun addr hcolon => ?_, fun host portStr hcolon hport => ?_⟩
  · obtain ⟨rfl, -⟩ := tryFromSocketAddr_eq_ok.mp h
    exact tryFromSocketAddr_socketAddr node
  · rw [tryFromSocketAddr, parseHostPort, rsplitOnceColon_eq_none hcolon]
    rfl
  · have hlist : (host ++ ":" ++ portStr).toList = host.toList ++ ':' :: portStr.toList := by simp
    have hnone : parseU16 portStr.toList = none := by
      refine Option.eq_none_iff_forall_ne_some.mpr fun port h => hport port ?_
      exact parseU16_eq_some.mp h
    rw [tryFromSocketAddr, parseHostPort, hlist, rsplitOnceColon_append hcolon]
    simp only [hnone, Except.map, String.ofList_toList]

/-- A bracketed host, and a port that is not written as `socket_addr` writes it. -/
example : tryFromSocketAddr "a" "[::1]:+09001" = .ok ⟨"a", "[::1]", 9001⟩ ∧
    tryFromSocketAddr "a" "[::1]:9001" = .ok ⟨"a", "[::1]", 9001⟩ ∧
    tryFromSocketAddr "a" "::65536" = .error (.invalidPort "65536" "::65536") := by
  decide

end RingNode

end LaneSwitchboards
