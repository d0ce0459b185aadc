import ChainLedger.Replay
import Std.Time.DateTime.Timestamp

/-!
# The command line

Reads the files that the arguments name, replays the events, and prints what
became of them.
-/

namespace ChainLedger

/-- The instant that the clock shows. -/
def clock : IO Instant := do
  let t ← Std.Time.Timestamp.now
  let ns := t.toNanosecondsSinceUnixEpoch.val
  let nanos := (ns % 1000000000).toNat % 1000000000
  return ⟨ns / 1000000000, nanos, by omega⟩

/-- The text of a file, if there is one. -/
def textOf (path : String) : IO (Option String) := do
  try
    return some (← IO.FS.readFile path)
  catch _ => return none

/-- The text of the events: a file or the standard input. -/
def eventsOf (path : String) : IO (Option String) := do
  if path.isEmpty then
    try
      return some (← (← IO.getStdin).readToEnd)
    catch _ => return none
  else textOf path

/-- The text of the records, if they are given; none if they cannot be read. -/
def seedOf (path : String) : IO (Option (Option String)) := do
  if path.isEmpty then return some none
  else return (← textOf path).map some

/-- A call with its options. -/
def callWith (o : Replay.Options) : IO Replay.Outcome := do
  let config ← textOf o.config
  let seed ← seedOf o.seed
  let events ← eventsOf o.events
  let key ← IO.getEnv "PARTNER_API_KEY"
  let now ← clock
  match config, seed, events with
  | some config, some seed, some events => return Replay.call config seed events key now
  | _, _, _ => return Replay.failure

end ChainLedger

open ChainLedger in
/-- Replays events from the command line. -/
def main (args : List String) : IO UInt32 := do
  match Replay.options? args with
  | none =>
    for line in Replay.usage do IO.eprintln line
    return 1
  | some o =>
    let r ← callWith o
    for line in r.output do IO.println line
    return UInt32.ofNat r.exitCode
