import ChainLedger.Rehearsal.Script
import ChainLedger.Transition.ChainAnswer
import ChainLedger.Dispatch
import ChainLedger.Rates
import ChainLedger.Partner

/-!
# Rehearsals

A rehearsal dispatches events with everything around them scripted: the
nodes follow a script, the clock stands still, waiting takes no time, effects
are written down instead of fired, and events may arrive while a question is
being answered. `Scene.host` is the host of a rehearsal.
-/

namespace ChainLedger

/-- The kinds of effects. -/
inductive EffectKind
  | emit
  | email
  | coin
  | fee
deriving DecidableEq, Repr

/-- The kind of an effect. -/
def Effect.kind : Effect → EffectKind
  | .emit .. => .emit
  | .email .. => .email
  | .listCoin .. => .coin
  | .notifyFee .. => .fee

/-- Who takes the effects. -/
inductive Sinks
  /-- They are written down, and those of some kinds are then refused. -/
  | recorded (refused : List EffectKind)
  /-- They are logged, and there is no partner. -/
  | logged
deriving DecidableEq, Repr

/-- The state of a rehearsal. What happened is kept last first. -/
structure Scene where
  ledgers : Ledgers
  now : Instant
  script : Script := []
  rates : ExchangeRates := {}
  registry : Registry := {}
  /-- The events that arrive during the next questions for a rate. -/
  duringRates : List (List InboundEvent) := []
  sinks : Sinks := .recorded []
  /-- How many milliseconds were waited. -/
  waited : Nat := 0
  requests : List Request := []
  probes : List String := []
  effects : List Effect := []
  /-- The reports of events that arrived during a question. -/
  nested : List Report := []

namespace Scene

/-- Lets events arrive. -/
abbrev Arrival := List InboundEvent → Scene → Scene

/-- Writes a request down; probes are kept apart. -/
def note (q : Request) (s : Scene) : Scene :=
  if q.method = "eth_syncing" then { s with probes := q.url :: s.probes }
  else { s with requests := q :: s.requests }

/-- A request to a scripted node. -/
def request (arrive : Arrival) (url method : String) (params : Json) (s : Scene) :
    Except ChainError Json × Scene :=
  let q : Request := ⟨url, method, params⟩
  let (reply, script) := Script.reply q s.script
  (reply.answer, arrive reply.deliver { s.note q with script := script })

/-- No wait is longer than thirty years of 365 days. -/
def longestWait : Nat := 30 * 365 * 24 * 60 * 60 * 1000

/-- The link of a rehearsal. It always starts with the first endpoint. -/
def link (arrive : Arrival) : Link Scene where
  request := request arrive
  sleep ms s := { s with waited := s.waited + min ms longestWait }
  choose _ s := (0, s)

/-- The chains of a rehearsal. -/
def chains (settings : ChainSettings) (arrive : Arrival) : Chains Scene where
  settings := settings
  net := link arrive
  registry := Scene.registry
  setRegistry r s := { s with registry := r }

/-- The rate of a currency, after the events that arrive during the question. -/
def rate (arrive : Arrival) (currency : Address) (s : Scene) : Except Refusal Decimal × Scene :=
  let s := match s.duringRates with
    | [] => s
    | events :: rest => arrive events { s with duringRates := rest }
  ((s.rates.rate? currency).mapError .rate, s)

/-- Takes an effect. -/
def fire (e : Effect) (s : Scene) : Bool × Scene :=
  match s.sinks with
  | .recorded refused => (!refused.contains e.kind, { s with effects := e :: s.effects })
  | .logged => ((Partner.withoutPartner e).isOk, s)

/-- The host of a rehearsal, for events that may arrive during questions. -/
def hostWith (settings : ChainSettings) (arrive : Arrival) : Host Scene where
  ledgers := Scene.ledgers
  write l s := { s with ledgers := l }
  clock s := (s.now, s)
  answer := (chains settings arrive).answer fun _ currency => rate arrive currency
  fire := fire

/-- Dispatches an event that arrives during a question. -/
def arriveOne (h : Host Scene) (settings : DispatchSettings) (s : Scene) (e : InboundEvent) :
    Scene :=
  let (r, s) := h.dispatch settings e s
  { s with nested := r :: s.nested }

/-- **The host of a rehearsal.** Events arrive within one another as deep as
the first argument says; what would arrive deeper is lost. -/
def host (chains : ChainSettings) (settings : DispatchSettings) : Nat → Host Scene
  | 0 => hostWith chains fun _ s => s
  | depth + 1 =>
    hostWith chains fun events s => events.foldl (arriveOne (host chains settings depth) settings) s

/-- How deep events arrive within one another. -/
def arrivalDepth : Nat := 100

end Scene

end ChainLedger
