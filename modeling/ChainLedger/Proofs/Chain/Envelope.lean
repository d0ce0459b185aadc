import ChainLedger.Chain.Envelope
import Mathlib.Data.List.Basic

/-!
# What an answer of a node is taken for

An object holds the last of the values that stand under a key (`Json.Holds`),
and this is what a lookup finds (`Json.get?_eq_some_iff`). An answer with a
failure under `error` is that failure, by its code and its message
(`Envelope.Tells`), whatever else the answer holds; one without is its result
as it stands, and an answer with neither may be asked for again. Main
statement: `Envelope.result_splits`. A failure that is `null` is told like any
other (`Envelope.result_of_null_error`).
-/

namespace ChainLedger

-- A power is the one of the core library, whatever other structure is in scope.
attribute [local instance (2000)] instPowNat

/-! ## Members of objects -/

namespace Json

variable {ms : List (String × Json)} {key : String} {v : Json}

/-- **Some members hold a value under a key**: the last one with the key has
the value. -/
def Holds (ms : List (String × Json)) (key : String) (v : Json) : Prop :=
  ∃ before after, ms = before ++ (key, v) :: after ∧ key ∉ after.map Prod.fst

/-- A lookup finds what the members hold. -/
theorem get?_eq_some_iff : (Json.obj ms).get? key = some v ↔ Holds ms key v := by
  rw [get?, Option.map_eq_some_iff]
  constructor
  · rintro ⟨⟨k, _⟩, hfind, rfl⟩
    obtain ⟨hk, after, before, hms, hafter⟩ := List.find?_eq_some_iff_append.mp hfind
    obtain rfl : k = key := by simpa using hk
    refine ⟨before.reverse, after.reverse, ?_, ?_⟩
    · rw [← List.reverse_reverse ms, hms]
      simp
    · rintro hmem
      obtain ⟨⟨_, w⟩, hw, rfl⟩ := List.mem_map.mp hmem
      exact absurd (hafter _ (List.mem_reverse.mp hw)) (by simp)
  · rintro ⟨before, after, rfl, hafter⟩
    refine ⟨(key, v), List.find?_eq_some_iff_append.mpr
      ⟨by simp, after.reverse, before.reverse, by simp, ?_⟩, rfl⟩
    rintro ⟨k, w⟩ hkw
    have hmem : (k, w) ∈ after := List.mem_reverse.mp hkw
    have hne : k ≠ key := fun hk => hafter (List.mem_map.mpr ⟨_, hmem, hk⟩)
    simp [hne]

/-- A lookup finds nothing where no member has the key. -/
theorem get?_eq_none_iff : (Json.obj ms).get? key = none ↔ key ∉ ms.map Prod.fst := by
  rw [get?, Option.map_eq_none_iff, List.find?_eq_none]
  simp only [List.mem_reverse, decide_eq_true_eq, List.mem_map, not_exists, not_and]

end Json

/-! ## Failures -/

namespace Envelope

open Json

/-- The first number that is no signed integer of 64 bits. -/
def beyond : Int := (2 ^ (63 : Nat) : Nat)

/-- **A failure tells a code**: the signed integer of 64 bits under `code`, and
zero if there is none. -/
def TellsCode (e : Json) (code : Int) : Prop :=
  (∃ ms, e = .obj ms ∧ Holds ms "code" (.num (.int code)) ∧ code < beyond) ∨
    code = 0 ∧ ∀ ms n, e = .obj ms → Holds ms "code" (.num (.int n)) → beyond ≤ n

/-- **A failure tells a message**: the text under `message`, and itself as a
whole if there is none. -/
def TellsMessage (e : Json) (message : String) : Prop :=
  (∃ ms, e = .obj ms ∧ Holds ms "message" (.str message)) ∨
    message = e.compact ∧ ∀ ms s, e = .obj ms → ¬ Holds ms "message" (.str s)

/-- **A failure tells a code and a message.** -/
structure Tells (e : Json) (code : Int) (message : String) : Prop where
  code : TellsCode e code
  message : TellsMessage e message

theorem asInt64?_int (n : Int) :
    (Json.num (.int n)).asInt64? = if n < beyond then some n else none := rfl

theorem asInt64?_eq_some_iff {v : Json} {n : Int} :
    v.asInt64? = some n ↔ v = .num (.int n) ∧ n < beyond := by
  constructor
  · intro h
    unfold asInt64? at h
    split at h
    · next m =>
      obtain ⟨hlt, hm⟩ := Option.ite_none_right_eq_some.mp h
      cases hm
      exact ⟨rfl, hlt⟩
    · cases h
  · rintro ⟨rfl, hlt⟩
    rw [asInt64?_int, if_pos hlt]

theorem tellsCode (e : Json) : TellsCode e (((e.get? "code").bind Json.asInt64?).getD 0) := by
  cases hcode : (e.get? "code").bind Json.asInt64? with
  | some n =>
    obtain ⟨v, hv, hn⟩ := Option.bind_eq_some_iff.mp hcode
    obtain ⟨rfl, hlt⟩ := asInt64?_eq_some_iff.mp hn
    cases e with
    | obj ms => exact .inl ⟨ms, rfl, get?_eq_some_iff.mp hv, hlt⟩
    | _ => cases hv
  | none =>
    refine .inr ⟨rfl, ?_⟩
    rintro ms n rfl hn
    refine Int.not_lt.mp fun hlt => ?_
    rw [get?_eq_some_iff.mpr hn, Option.bind_some, asInt64?_eq_some_iff.mpr ⟨rfl, hlt⟩] at hcode
    cases hcode

theorem tellsMessage (e : Json) : TellsMessage e ((e.getText? "message").getD e.compact) := by
  cases hmessage : e.getText? "message" with
  | some s =>
    obtain ⟨v, hv, hs⟩ := Option.bind_eq_some_iff.mp hmessage
    obtain rfl : v = .str s := by
      cases v <;> cases hs
      rfl
    cases e with
    | obj ms => exact .inl ⟨ms, rfl, get?_eq_some_iff.mp hv⟩
    | _ => cases hv
  | none =>
    refine .inr ⟨rfl, ?_⟩
    rintro ms s rfl hs
    rw [getText?, get?_eq_some_iff.mpr hs] at hmessage
    cases hmessage

/-- **A failure is read by the code and the message that it tells.** -/
theorem exists_tells (e : Json) :
    ∃ code message, Tells e code message ∧ failure e = .ofRpc code message :=
  ⟨_, _, ⟨tellsCode e, tellsMessage e⟩, rfl⟩

/-! ## Answers -/

/-- **An answer is a failure, a result, or neither.** What it holds under
`error` decides, by code and message; without that it is its result as it
stands, and without either it may be asked for again. -/
theorem result_splits (ms : List (String × Json)) :
    (∀ r, Holds ms "result" r → "error" ∉ ms.map Prod.fst → result (.obj ms) = .ok r) ∧
      (∀ e, Holds ms "error" e → ∃ code message, Tells e code message ∧
        result (.obj ms) = .error (.ofRpc code message)) ∧
      ("result" ∉ ms.map Prod.fst → "error" ∉ ms.map Prod.fst →
        ∃ message, result (.obj ms) = .error (.transient .invalidResponse message)) := by
  refine ⟨fun r hr herror => ?_, fun e he => ?_, fun hresult herror => ?_⟩
  · rw [result, get?_eq_none_iff.mpr herror, get?_eq_some_iff.mpr hr]
  · obtain ⟨code, message, htells, hfailure⟩ := exists_tells e
    refine ⟨code, message, htells, ?_⟩
    rw [← hfailure, result, get?_eq_some_iff.mpr he]
  · rw [result, get?_eq_none_iff.mpr herror, get?_eq_none_iff.mpr hresult]
    exact ⟨_, rfl⟩

/-- An answer with a result and a failure beside it. -/
def revertedBeside : List (String × Json) :=
  [("jsonrpc", .str "2.0"), ("id", .int 1), ("result", .str "0x10"),
   ("error", .obj [("code", .int 3), ("message", .str "execution reverted: paused")])]

/-- Of a result and a failure the failure is told, a result alone is taken as it
stands, and an empty answer is asked for again. -/
theorem result_splits_reverted :
    (∃ code message, Tells (.obj [("code", .int 3), ("message", .str "execution reverted: paused")])
        code message ∧ result (.obj revertedBeside) = .error (.ofRpc code message)) ∧
      result (.obj [("id", .int 1), ("result", .null)]) = .ok .null ∧
      ∃ message, result (.obj [("id", .int 1)]) = .error (.transient .invalidResponse message) := by
  refine ⟨(result_splits revertedBeside).2.1 _ (get?_eq_some_iff.mp rfl),
    (result_splits [("id", .int 1), ("result", .null)]).1 _ (get?_eq_some_iff.mp rfl) (by decide),
    (result_splits [("id", .int 1)]).2.2 (by decide) (by decide)⟩

/-- An answer with a result, whose failure is `null`. -/
def unfailing : List (String × Json) :=
  [("jsonrpc", .str "2.0"), ("id", .int 1), ("result", .str "0x10"), ("error", .null)]

/-- **A failure that is `null` is told like any other**, and the result beside
it is lost. -/
theorem result_of_null_error : Holds unfailing "result" (.str "0x10") ∧
    Holds unfailing "error" .null ∧ result (.obj unfailing) = .error (.rpc 0 "null") :=
  ⟨get?_eq_some_iff.mp rfl, get?_eq_some_iff.mp rfl, rfl⟩

end Envelope

end ChainLedger
