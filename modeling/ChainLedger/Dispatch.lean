import ChainLedger.Transition.Route
import ChainLedger.Settings

/-!
# Dispatching events

`Host.dispatch` takes an event through everything: it is brought into its
typed form, an attempt is made to apply it, an attempt that met a conflict
is made again as often as the settings allow, and the effects are fired once
the ledgers are written. It always ends with a report, and one event never
stops the ones after it.
-/

namespace ChainLedger

/-- What an event meets: the ledgers, a clock, answers to questions, and
those who take effects, all of which may change a state `σ`. -/
structure Host (σ : Type) where
  /-- The ledgers of the moment. -/
  ledgers : σ → Ledgers
  /-- Puts new ledgers in the place of the old ones. -/
  write : Ledgers → σ → σ
  /-- Reads the clock for a commit, as often as it asks. -/
  clock : σ → Clock × σ
  /-- Answers a question. -/
  answer : (q : Question) → σ → q.Answer × σ
  /-- Fires an effect; the answer is whether it was taken. -/
  fire : Effect → σ → Bool × σ

/-- What became of an event. -/
inductive Report
  /-- It was applied, and so many of its effects failed. -/
  | applied (effects failed : Nat)
  /-- It does not apply to the records as they are. -/
  | skipped (reason : Skip)
  /-- Its name is unknown. -/
  | ignored
  /-- It was refused. -/
  | failed (refusal : Refusal)

namespace Report

/-- The report of a refusal. -/
def ofRefusal : Refusal → Report
  | .skip r => .skipped r
  | r => .failed r

/-- A truth value as a report shows it. -/
def flagText (b : Bool) : String := if b then "true" else "false"

/-- **A report on one line.** -/
def line : Report → String
  | .applied n k =>
    "Applied \x7b effects: " ++ toString n ++ ", failed_effects: " ++ toString k ++ " \x7d"
  | .skipped r => "Skipped(" ++ Text.quoted r.message ++ ")"
  | .ignored => "Ignored"
  | .failed r =>
    "Failed \x7b reason: " ++ Text.quoted r.message ++ ", fatal: " ++ flagText r.isFatal ++ " \x7d"

end Report

namespace Host

variable {σ : Type} (h : Host σ)

/-- Commits: the ledgers are written if the commit does not refuse. -/
def commit (c : Commit) (s : σ) : Except Refusal (List Effect) × σ :=
  let (clock, s) := h.clock s
  match c clock (h.ledgers s) with
  | .ok (l, effects) => (.ok effects, h.write l s)
  | .error r => (.error r, s)

/-- Carries an attempt through to its end. -/
def run : Attempt → σ → Except Refusal (List Effect) × σ
  | .refuse r, s => (.error r, s)
  | .ask q next, s =>
    let (a, s) := h.answer q s
    run (next a) s
  | .commit c, s => h.commit c s

/-- One attempt to apply an event, from the ledgers as they are now. -/
def attempt (verify : Bool) (e : Event) (s : σ) : Except Refusal (List Effect) × σ :=
  h.run (e.attempt verify (h.ledgers s)) s

/-- An attempt, and up to so many more after conflicts. -/
def attempts (verify : Bool) (e : Event) : Nat → σ → Except Refusal (List Effect) × σ
  | 0, s => h.attempt verify e s
  | more + 1, s =>
    match h.attempt verify e s with
    | (.ok effects, s) => (.ok effects, s)
    | (.error r, s) => if r.isRetryable then attempts verify e more s else (.error r, s)

/-- Applies an event and fires its effects. -/
def apply (settings : DispatchSettings) (e : Event) (s : σ) : Report × σ :=
  match h.attempts settings.verifyReceipts e settings.maxConflictRetries s with
  | (.error r, s) => (.ofRefusal r, s)
  | (.ok effects, s) =>
    let (failed, s) := Effect.fireAll h.fire effects s
    (.applied effects.length failed, s)

/-- **Dispatches one event.** -/
def dispatch (settings : DispatchSettings) (raw : InboundEvent) (s : σ) : Report × σ :=
  match raw.normalize with
  | .error r => (.ofRefusal r, s)
  | .ok none => (.ignored, s)
  | .ok (some e) => h.apply settings e s

/-- **Dispatches events in the order of their delivery.** -/
def dispatchAll (settings : DispatchSettings) : List InboundEvent → σ → List Report × σ
  | [], s => ([], s)
  | e :: rest, s =>
    let (r, s) := h.dispatch settings e s
    let (rs, s) := dispatchAll settings rest s
    (r :: rs, s)

end Host

end ChainLedger
