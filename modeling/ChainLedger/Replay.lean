import ChainLedger.Rehearsal.Scene
import ChainLedger.Ledger.Stage

/-!
# Replaying events

The command line takes settings, records to start with, and events, one to a
line. It dispatches the events in order and tells what became of each, and
then how each offering stands. No node and no partner can be reached from
it: an event that needs one fails, and effects for the partner fail.
-/

namespace ChainLedger.Replay

/-- Where the settings, the records and the events are; a path that is empty
is not given. -/
structure Options where
  config : String := ""
  seed : String := ""
  events : String := ""
deriving DecidableEq, Repr

/-- Takes arguments one after the other; none if help is asked for. -/
def Options.take (o : Options) : List String → Option Options
  | [] => some o
  | "--help" :: _ => none
  | "-h" :: _ => none
  | ["--config"] => some { o with config := "" }
  | ["--seed"] => some { o with seed := "" }
  | ["--events"] => some { o with events := "" }
  | "--config" :: path :: rest => take { o with config := path } rest
  | "--seed" :: path :: rest => take { o with seed := path } rest
  | "--events" :: path :: rest => take { o with events := path } rest
  | _ :: rest => take o rest

/-- **The options that arguments give**, if they name settings. -/
def options? (args : List String) : Option Options :=
  match Options.take {} args with
  | some o => if o.config.isEmpty then none else some o
  | none => none

/-- How to call the command line. -/
def usage : List String :=
  ["Usage: replay --config <CONFIG_JSON> [--seed <SEED_JSON>] [--events <EVENTS_JSONL>]",
   "       (events are read from standard input when --events is omitted)"]

/-! ## Reading -/

/-- A line holds an event, unless it is blank or a comment. -/
def holdsEvent (line : String) : Bool :=
  match line.toList with
  | [] => false
  | c :: _ => c ≠ '#'

/-- **The events of a text**, if every line that holds one can be read. -/
def events? (text : String) : Option (List InboundEvent) :=
  (((text.splitOn "\n").map Text.trim).filter holdsEvent).mapM InboundEvent.codec.ofText?

/-- The ledgers to start with. -/
def ledgers? (now : Instant) : Option String → Option Ledgers
  | none => some {}
  | some text => ((Seed.codec now).ofText? text).map Seed.ledgers

/-! ## Telling -/

/-- What became of a call. -/
structure Outcome where
  exitCode : Nat
  output : List String
deriving DecidableEq, Repr

/-- Nothing could be done. -/
def failure : Outcome := ⟨1, []⟩

/-- What became of an event, on a line. -/
def eventLine (e : InboundEvent) (r : Report) : String :=
  e.recordId ++ "\t" ++ e.eventName ++ "\t" ++ r.line

/-- How an offering stands, on a line. -/
def offeringLine (now : Instant) (o : Offering) : Except Trap String := do
  let sold ← o.soldAmount
  let stage ← o.stage now
  return o.id ++ "\tavailable=" ++ o.availableSupply.toText ++ "\tsold=" ++ sold.toText
    ++ "\tstage=" ++ stage.name

/-- How offerings stand, after some output; a trap ends the call. -/
def tellOfferings (now : Instant) : List Offering → List String → Outcome
  | [], output => ⟨0, output⟩
  | o :: rest, output =>
    match offeringLine now o with
    | .ok line => tellOfferings now rest (output ++ [line])
    | .error _ => ⟨101, output⟩

/-! ## Replaying -/

/-- Nodes that cannot be reached. -/
def outOfReach : Script :=
  [{ method := "eth_syncing", replies := [⟨.error (.transient .connectionRefused ""), []⟩] }]

/-- What a replay starts from. -/
structure Input where
  settings : Settings
  rates : ExchangeRates
  ledgers : Ledgers
  events : List InboundEvent

/-- Reads what a replay starts from. -/
def input? (config : String) (seed : Option String) (events : String)
    (partnerKey : Option String) (now : Instant) : Option Input := do
  let settings ← Settings.ofText? config partnerKey
  let rates ← (ExchangeRates.ofSettings settings.exchangeRates).toOption
  let ledgers ← ledgers? now seed
  let events ← events? events
  return ⟨settings, rates, ledgers, events⟩

/-- The scene of a replay. -/
def scene (i : Input) (now : Instant) : Scene where
  ledgers := i.ledgers
  now := now
  script := outOfReach
  rates := i.rates
  sinks := .logged

/-- **Replays events** at the instant `now`. -/
def run (i : Input) (now : Instant) : Outcome :=
  let host := Scene.host i.settings.chains i.settings.dispatch 0
  let (reports, s) := host.dispatchAll i.settings.dispatch i.events (scene i now)
  tellOfferings now s.ledgers.offerings.toList (List.zipWith eventLine i.events reports)

/-- **A whole call**, from the texts of its files. -/
def call (config : String) (seed : Option String) (events : String)
    (partnerKey : Option String) (now : Instant) : Outcome :=
  match input? config seed events partnerKey now with
  | some i => run i now
  | none => failure

end ChainLedger.Replay
