import Dfsm.Csharp.Requests
import Dfsm.Csharp.Validate
import Dfsm.Lib.Calls
import Mathlib.Logic.Function.Basic

/-! Effects of the C# SDK that run other effects and transitions, of their own transaction and
of others, and how deep they nest. -/
namespace Dfsm.Csharp
open Act
open Relation (ReflTransGen)
open Go (leaf)

section
variable {Context Data : Type} {a : DfsmActor Context} {txId eventName : String} {depth : Int} {checked : Prop}

/-- An effect that a call at this depth asks for is of its transaction and one deeper. -/
def Op.Deepens (txId : String) (depth : Int) (checked : Prop) : Op Context Data → Prop
  | .effect _ deeper request => deeper = depth + 1 ∧ request.transactionId = txId ∧ checked
  | _ => True

theorem internalDeepens (passed : checked) {context : Context} {state : StateValue} {effectName : String} {payload : Option Data} :
    (a.runEffectInternal txId eventName depth context state effectName payload).Asks (Op.Deepens txId depth checked) := by
  unfold DfsmActor.runEffectInternal
  split
  · exact ⟨⟨rfl,rfl,passed⟩,fun r => throwAsks⟩
  · trivial

theorem effectsDeepen (passed : checked) {context : Context} {state : StateValue} {effects : List String} :
    (a.runEffects txId eventName depth context state effects : Act Context Data Unit).Asks (Op.Deepens txId depth checked) :=
  Program.asksFold (fun _ _ => internalDeepens passed) _ _

theorem hooksDeepen {hookType : HookType} {event : HookEvent Context Data} :
    (a.fireHook hookType event).Asks (Op.Deepens txId depth checked) :=
  Program.asksFold (fun _ _ => Program.asksRequest trivial (fun _ => loggedAsks (fun _ => trivial))) _ _

theorem serializeDeepens {context : Context} : (a.serializeContext context : Act Context Data _).Asks (Op.Deepens txId depth checked) := by
  unfold DfsmActor.serializeContext
  split
  · trivial
  · exact Program.asksRequest trivial (fun r => throwAsks)

theorem deserializeDeepens {json : String} : (a.deserializeContext json : Act Context Data _).Asks (Op.Deepens txId depth checked) := by
  unfold DfsmActor.deserializeContext
  split
  · trivial
  · exact Program.asksRequest trivial (fun r => throwAsks)

theorem createDeepens (passed : checked) {now : Int} :
    (a.create txId eventName depth now : Act Context Data _).Asks (Op.Deepens txId depth checked) := by
  unfold DfsmActor.create
  split
  · trivial
  · refine Program.asksBind serializeDeepens (fun contextJson => Program.asksRequest trivial (fun r => ?_))
    refine Program.asksBind throwAsks (fun _ => Program.asksBind hooksDeepen (fun _ => ?_))
    exact Program.asksBind (effectsDeepen passed) (fun _ => trivial)

theorem loadDeepens (passed : checked) :
    (a.loadOrCreate txId eventName depth : Act Context Data _).Asks (Op.Deepens txId depth checked) := by
  refine Program.asksRequest trivial (fun r => Program.asksBind throwAsks (fun found => Program.asksRequest trivial (fun now => ?_)))
  cases found with
  | some record => trivial
  | none => exact createDeepens passed

theorem coerceDeepens {chosen : Chosen} {input : Option Data} :
    (DfsmActor.coerceInput chosen input : Act Context Data (Option Data)).Asks (Op.Deepens txId depth checked) := by
  unfold DfsmActor.coerceInput
  split
  · trivial
  · split
    · exact Program.asksRequest trivial (fun r => Program.asksBind throwAsks (fun _ => trivial))
    · trivial

theorem validateDeepens {coercedInput : Option Data} :
    (DfsmActor.validateInput eventName coercedInput : Act Context Data Unit).Asks (Op.Deepens txId depth checked) := by
  unfold DfsmActor.validateInput
  split
  · trivial
  · exact Program.asksRequest trivial (fun r => throwAsks)

theorem retryDeepens {breaker : Option Nat} {handlerName : String} {request : TransitionRequest Context Data} (left : Nat) :
    ∀ {made : Nat} {lastError : Option Exn},
      (DfsmActor.retryLoop breaker handlerName request left made lastError).Asks (Op.Deepens txId depth checked) := by
  induction left with
  | zero => intro made lastError; trivial
  | succ left ih =>
    intro made lastError
    rw [DfsmActor.retryLoop]
    refine Program.asksRequest trivial (fun r => ?_)
    cases r with
    | ok output =>
      cases breaker with
      | none => trivial
      | some breaker => exact ⟨trivial,fun _ => ⟨trivial,fun _ => trivial⟩⟩
    | error ex =>
      have again : (if left ≠ 0 then do
          orThrow (← ask (.sleep (made+1)))
          DfsmActor.retryLoop breaker handlerName request left (made+1) (some ex)
        else DfsmActor.retryLoop breaker handlerName request left (made+1) (some ex)).Asks (Op.Deepens txId depth checked) := by
        split
        · exact Program.asksRequest trivial (fun r => Program.asksBind throwAsks (fun _ => ih))
        · exact ih
      cases breaker with
      | none => exact again
      | some breaker => exact ⟨trivial,fun _ => ⟨trivial,fun _ => again⟩⟩

theorem executeDeepens {chosen : Chosen} {breaker : Option Nat} {currentCtx : Context} {coercedInput : Option Data}
    {currentState : StateValue} : (DfsmActor.executeHandler txId eventName chosen breaker currentCtx coercedInput currentState).Asks
      (Op.Deepens txId depth checked) := by
  unfold DfsmActor.executeHandler
  split
  · refine Program.asksBind ?_ (fun _ => retryDeepens _)
    cases breaker with
    | none => trivial
    | some breaker =>
      refine Program.asksRequest trivial (fun taken => Program.asksRequest trivial (fun _ => ?_))
      split <;> trivial
  · trivial

theorem pushDeepens {chosen : Chosen} {input : Option Data} {prevState targetState : StateValue} {currentCtx : Context} :
    (a.pushStep txId chosen input prevState targetState currentCtx).Asks (Op.Deepens txId depth checked) := by
  have serialized : (DfsmActor.serializeInput input : Act Context Data _).Asks (Op.Deepens txId depth checked) := by
    cases input with
    | none => trivial
    | some input => exact Program.asksRequest trivial (fun r => Program.asksBind throwAsks (fun _ => trivial))
  unfold DfsmActor.pushStep
  split
  · trivial
  · refine Program.asksRequest trivial (fun stepId => Program.asksBind serialized (fun json => Program.asksBind serializeDeepens (fun _ => ?_)))
    exact Program.asksRequest trivial (fun timestamp => Program.asksRequest trivial (fun r => throwAsks))

theorem succeedDeepens (passed : checked) {rounds : Nat} {durationMs : Int} {input : Option Data} {chosen : Chosen}
    {record : TransactionRecord} {currentCtx : Context} {tried : Tried Context Data} :
    (a.succeed txId eventName rounds depth durationMs input chosen record currentCtx tried).Asks (Op.Deepens txId depth checked) := by
  have next : (a.nextContextJson record tried.output.context : Act Context Data _).Asks (Op.Deepens txId depth checked) := by
    unfold DfsmActor.nextContextJson
    split
    · trivial
    · exact serializeDeepens
  have notified {committed : TransactionRecord} {prevState : StateValue} {updatedCtx : Context} {applied : AppliedTransition} :
      (a.notifySuccess txId eventName depth committed prevState updatedCtx applied : Act Context Data Unit).Asks
        (Op.Deepens txId depth checked) := by
    unfold DfsmActor.notifySuccess
    refine Program.asksBind hooksDeepen (fun _ => ?_)
    split
    · refine Program.asksBind hooksDeepen (fun _ => Program.asksBind hooksDeepen (fun _ => ?_))
      exact Program.asksBind (effectsDeepen passed) (fun _ => effectsDeepen passed)
    · exact Program.asksBind (effectsDeepen passed) (fun _ => effectsDeepen passed)
  unfold DfsmActor.succeed
  refine Program.asksBind Program.asksExcept (fun applied => Program.asksBind next (fun contextJson => Program.asksBind pushDeepens (fun _ => ?_)))
  refine Program.asksBind Program.asksExcept (fun settled => Program.asksRequest trivial (fun updatedAt => Program.asksRequest trivial (fun r => ?_)))
  refine Program.asksBind throwAsks (fun _ => Program.asksRequest trivial (fun r => Program.asksBind throwAsks (fun _ => ?_)))
  exact Program.asksBind notified (fun _ => trivial)

theorem compensateDeepens {currentCtx : Context} {step : SagaStepRecord} :
    (a.compensateStep txId currentCtx step : Act Context Data Unit).Asks (Op.Deepens txId depth checked) := by
  have tried : (DfsmActor.tryCompensate txId currentCtx step : Act Context Data (Except Exn Unit)).Asks (Op.Deepens txId depth checked) := by
    unfold DfsmActor.tryCompensate
    split
    · exact ⟨trivial,fun _ => trivial⟩
    · refine Program.asksRequest trivial (fun r => ?_)
      cases r with
      | error e => trivial
      | ok snapshot => exact ⟨trivial,fun _ => trivial⟩
  unfold DfsmActor.compensateStep
  split
  · exact Program.asksBind tried (fun x => loggedAsks (fun _ => trivial))
  · trivial

theorem unwindDeepens {currentCtx : Context} (remaining : Nat) : ∀ {compensatedSteps : Nat},
    (a.unwind txId currentCtx remaining compensatedSteps : Act Context Data Nat).Asks (Op.Deepens txId depth checked) := by
  induction remaining with
  | zero => intro compensatedSteps; trivial
  | succ remaining ih =>
    intro compensatedSteps
    rw [DfsmActor.unwind]
    refine Program.asksRequest trivial (fun r => Program.asksBind throwAsks (fun found => ?_))
    cases found with
    | none => trivial
    | some step => exact Program.asksBind compensateDeepens (fun _ => Program.asksBind hooksDeepen (fun _ => ih))

theorem failDeepens {durationMs : Int} {chosen : Chosen} {record : TransactionRecord} {currentCtx : Context} {attempts : Nat}
    {lastError : Exn} : (a.fail txId eventName durationMs chosen record currentCtx attempts lastError : Act Context Data _).Asks
      (Op.Deepens txId depth checked) := by
  have rolled {rollbackTriggered : Bool} :
      (a.rollBack txId rollbackTriggered currentCtx : Act Context Data Nat).Asks (Op.Deepens txId depth checked) := by
    unfold DfsmActor.rollBack
    split
    · exact Program.asksRequest trivial (fun r => Program.asksBind throwAsks (fun _ => unwindDeepens _))
    · trivial
  unfold DfsmActor.fail
  refine Program.asksRequest trivial (fun r => Program.asksBind throwAsks (fun _ => Program.asksBind rolled (fun compensatedSteps => ?_)))
  refine Program.asksBind Program.asksExcept (fun applied => Program.asksRequest trivial (fun updatedAt => Program.asksRequest trivial (fun r => ?_)))
  exact Program.asksBind throwAsks (fun _ => Program.asksBind hooksDeepen (fun _ => trivial))

theorem stepDeepens (passed : checked) {rounds : Nat} {input coercedInput : Option Data} {chosen : Chosen} {marked : TransactionRecord} :
    (a.execute txId eventName rounds depth input coercedInput chosen marked).Asks (Op.Deepens txId depth checked) := by
  have tries {currentCtx : Context} {breaker : Option Nat} {rest : Tried Context Data → Int → Act Context Data (TransitionExecutionResult Data)}
      (deepens : ∀ tried durationMs, (rest tried durationMs).Asks (Op.Deepens txId depth checked)) : (do
      let tried ← DfsmActor.executeHandler txId eventName chosen breaker currentCtx coercedInput marked.currentState
      let durationMs ← ask .elapsedMilliseconds
      rest tried durationMs).Asks (Op.Deepens txId depth checked) :=
    Program.asksBind executeDeepens (fun tried => Program.asksRequest trivial (fun durationMs => deepens tried durationMs))
  unfold DfsmActor.execute
  refine Program.asksBind deserializeDeepens (fun currentCtx => ?_)
  unfold DfsmActor.getBreaker
  split
  · refine tries (fun tried durationMs => ?_)
    split
    · exact succeedDeepens passed
    · exact failDeepens
  · refine Program.asksRequest trivial (fun breaker => tries (fun tried durationMs => ?_))
    split
    · exact succeedDeepens passed
    · exact failDeepens

theorem transitionDeepens {rounds : Nat} {input : Option Data} :
    (a.transitionAsync txId eventName rounds depth input).Asks (Op.Deepens txId depth (depth < a.machine.maxEffectChainDepth)) := by
  unfold DfsmActor.transitionAsync
  split
  · trivial
  · rename_i below
    have passed : depth < a.machine.maxEffectChainDepth := Int.not_le.mp below
    refine Program.asksBind (loadDeepens passed) (fun record => ?_)
    unfold DfsmActor.transitionOn
    split
    · trivial
    · split
      · trivial
      · refine Program.asksBind coerceDeepens (fun coercedInput => Program.asksBind validateDeepens (fun _ => ?_))
        refine Program.asksBind hooksDeepen (fun _ => Program.asksBind ?_ (fun marked => stepDeepens passed))
        exact Program.asksRequest trivial (fun updatedAt => Program.asksRequest trivial (fun r => Program.asksBind throwAsks (fun _ => trivial)))

theorem effectDeepens {effectName : String} {payload : Option Data} :
    (a.runEffectAsync txId depth effectName payload).Asks (Op.Deepens txId depth True) := by
  refine Program.asksRequest trivial (fun r => Program.asksBind throwAsks (fun found => ?_))
  cases found with
  | none => trivial
  | some record => exact Program.asksBind deserializeDeepens (fun context => internalDeepens trivial)

end

/-- A method of an actor. -/
inductive ActorCall (A Data : Type) where
  | transitionAsync (actor : A) (transactionId eventName : String) (input : Option Data)
  | runEffectAsync (actor : A) (transactionId effectName : String) (payload : Option Data)

/-- What an effect may wait for: the delegate of its request, a method of any actor, and
whatever else it has to do with. -/
inductive EffectCall (A Data : Type) where
  | runEffect (eff : String) (payload : Option Data)
  | actor (call : ActorCall A Data)
  | own (query : Data)

/-- `RunEffectAsync` gives no result back. -/
abbrev EffectReply (A Data : Type) : EffectCall A Data → Type
  | .runEffect _ _ => Except Exn Unit
  | .actor _ => Except Exn (Option (TransitionExecutionResult Data))
  | .own _ => Data

abbrev EffectBody (A Data : Type) := Program (EffectReply A Data) Exn Unit

/-- The actors of a process. Those of one closed class, for one type of contexts, share the
static `EffectChainDepth`. An effect is known by its actor and its name. -/
structure Process (A K Context Data : Type) where
  actor : A → DfsmActor Context
  closedClass : A → K
  effects : A → String → EffectRequest Context Data → EffectBody A Data
  rounds : Nat

/-- What is left to run of a method or of an effect, with what each class's `EffectChainDepth`
holds in its flow. -/
inductive Frame (A K Context Data : Type) where
  | method (call : ActorCall A Data) (depths : K → Int) (rest : Act Context Data (Option (TransitionExecutionResult Data)))
  | effect (actor : A) (depths : K → Int) (request : EffectRequest Context Data) (rest : EffectBody A Data)

variable {A K Context Data : Type}

def Op.isEffect : Op Context Data → Bool
  | .effect _ _ _ => true
  | _ => false

namespace ActorCall

def actor : ActorCall A Data → A
  | .transitionAsync i _ _ _ => i
  | .runEffectAsync i _ _ _ => i

def transactionId : ActorCall A Data → String
  | .transitionAsync _ txId _ _ => txId
  | .runEffectAsync _ txId _ _ => txId

end ActorCall

namespace Process
variable (w : Process A K Context Data)

def maxDepth (i : A) : Int := (w.actor i).machine.maxEffectChainDepth

def body (depths : K → Int) : ActorCall A Data → Act Context Data (Option (TransitionExecutionResult Data))
  | .transitionAsync i txId eventName input => do
    pure (some (← (w.actor i).transitionAsync txId eventName w.rounds (depths (w.closedClass i)) input))
  | .runEffectAsync i txId effectName payload => do
    (w.actor i).runEffectAsync txId (depths (w.closedClass i)) effectName payload
    pure none

def called (depths : K → Int) (call : ActorCall A Data) : Frame A K Context Data := .method call depths (w.body depths call)

/-- Called from outside of all effects. -/
def start (call : ActorCall A Data) : Frame A K Context Data := w.called (fun _ => 0) call

/-- The guard of `TransitionAsync` throws. -/
def Guarded (depths : K → Int) : ActorCall A Data → Prop
  | .transitionAsync i _ _ _ => w.maxDepth i ≤ depths (w.closedClass i)
  | .runEffectAsync _ _ _ _ => False

variable [DecidableEq K]

/-- The effect of a request that sets the counter to `depth`. -/
def entered (i : A) (depths : K → Int) (depth : Int) (name : String) (request : EffectRequest Context Data) : Frame A K Context Data :=
  .effect i (Function.update depths (w.closedClass i) depth) request (w.effects i name request)

/-- A transition that the guard refuses comes back at once. -/
inductive Moves : Frame A K Context Data → Frame A K Context Data → Prop where
  | replied {call depths} (op : Op Context Data) {next} (other : op.isEffect = false) (r : Reply Context Data op) :
      Moves (.method call depths (Program.ask op next)) (.method call depths (next r))
  | own {i depths request query next} (r : Data) :
      Moves (.effect i depths request (.ask (.own query) next)) (.effect i depths request (next r))
  | unknown {i depths request eff payload next} (missing : (w.actor i).registry.getEffect eff = false) :
      Moves (.effect i depths request (.ask (.runEffect eff payload) next)) (.effect i depths request (next (.ok ())))
  | guarded {j depths request i txId eventName input next} (guard : w.maxDepth i ≤ depths (w.closedClass i)) :
      Moves (.effect j depths request (.ask (.actor (.transitionAsync i txId eventName input)) next))
        (.effect j depths request (next (.error (.maxEffectChainDepth (w.maxDepth i) txId eventName))))

/-- The delegate of a request passes on what its effect was requested with, except for the
payload. -/
inductive CallsFrame : Frame A K Context Data → Frame A K Context Data → Prop where
  | effect {call depths name depth request next} :
      CallsFrame (.method call depths (Program.ask (.effect name depth request) next)) (w.entered call.actor depths depth name request)
  | runEffect {i depths request eff payload next} (found : (w.actor i).registry.getEffect eff = true) :
      CallsFrame (.effect i depths request (.ask (.runEffect eff payload) next))
        (w.entered i depths (depths (w.closedClass i) + 1) eff { request with payload })
  | actor {i depths request call next} (passed : ¬w.Guarded depths call) :
      CallsFrame (.effect i depths request (.ask (.actor call) next)) (w.called depths call)

end Process

inductive Ends : Frame A K Context Data → Except Exn (Option (TransitionExecutionResult Data)) → Prop where
  | returned {call depths r} : Ends (.method call depths (.done r)) (.ok r)
  | thrown {call depths e} : Ends (.method call depths (.fail (.thrown e))) (.error e)
  | effect {i depths request} : Ends (.effect i depths request (.done ())) (.ok none)
  | failed {i depths request e} : Ends (.effect i depths request (.fail e)) (.error e)

inductive Resumes : Frame A K Context Data → Except Exn (Option (TransitionExecutionResult Data)) → Frame A K Context Data → Prop where
  | effect {call depths name depth request next} (r) :
      Resumes (.method call depths (Program.ask (.effect name depth request) next)) r (.method call depths (next (r.map (fun _ => ()))))
  | runEffect {i depths request eff payload next} (r) :
      Resumes (.effect i depths request (.ask (.runEffect eff payload) next)) r (.effect i depths request (next (r.map (fun _ => ()))))
  | actor {i depths request call next} (r) :
      Resumes (.effect i depths request (.ask (.actor call) next)) r (.effect i depths request (next r))

/-- The frame waits for an effect of the transaction that is run without its transition. -/
inductive Unchecked (w : Process A K Context Data) : Frame A K Context Data → A → String → Prop where
  | runEffectAsync {i txId effectName payload depths name depth request next} :
      Unchecked w (.method (.runEffectAsync i txId effectName payload) depths (Program.ask (.effect name depth request) next)) i txId
  | runEffect {i depths request eff payload next} (found : (w.actor i).registry.getEffect eff = true) :
      Unchecked w (.effect i depths request (.ask (.runEffect eff payload) next)) i request.transactionId

/-- The frame waits for a transition of the transaction. -/
inductive Transits : Frame A K Context Data → A → String → Prop where
  | transitionAsync {j depths request i txId eventName input next} :
      Transits (.effect j depths request (.ask (.actor (.transitionAsync i txId eventName input)) next)) i txId

/-- The frame waits for an effect or a transition of the transaction. -/
inductive Awaits (w : Process A K Context Data) : Frame A K Context Data → A → String → Prop where
  | effect {i txId eventName input depths name depth request next} :
      Awaits w (.method (.transitionAsync i txId eventName input) depths (Program.ask (.effect name depth request) next)) i txId
  | unchecked {f i txId} (runs : Unchecked w f i txId) : Awaits w f i txId
  | transition {f i txId} (transits : Transits f i txId) : Awaits w f i txId

/-- The frame goes on with the exception that a chain that is too deep ends in. -/
def Refused (w : Process A K Context Data) (i : A) (txId : String) (f f' : Frame A K Context Data) : Prop :=
  ∃ eventName, Resumes f (.error (.maxEffectChainDepth (w.maxDepth i) txId eventName)) f'

def Frame.runs : Frame A K Context Data → Option (A × String)
  | .method _ _ _ => none
  | .effect i _ request _ => some (i,request.transactionId)

section
variable [DecidableEq A] [DecidableEq K]

/-- How many effects of the transaction are running. -/
def nested (i : A) (txId : String) (stack : List (Frame A K Context Data)) : Nat := stack.countP (fun f => f.runs = some (i,txId))

/-- How many effects of all the actors of a class are running. -/
def together (w : Process A K Context Data) (k : K) (stack : List (Frame A K Context Data)) : Nat :=
  stack.countP (fun f => f.runs.any (fun e => w.closedClass e.1 = k))

def nesting (w : Process A K Context Data) : Frames (Frame A K Context Data) (Except Exn (Option (TransitionExecutionResult Data))) where
  moves := w.Moves
  calls := w.CallsFrame
  ends := Ends
  resumes := Resumes

/-- No chain of a transaction is deeper than its machine allows, what would be the next one is
refused, and no other nesting makes a transition come back at once. -/
structure ChainsBounded (w : Process A K Context Data) (start : Frame A K Context Data) : Prop where
  bounded : ∀ stack i txId, (nesting w).Reaches start stack → 0 < nested i txId stack → (nested i txId stack : Int) ≤ w.maxDepth i
  refused : ∀ f stack next i txId, (nesting w).Reaches start (f::stack) → w.maxDepth i ≤ nested i txId (f::stack) → Awaits w f i txId →
    (nesting w).Step (f::stack) next → ∃ f', next = f'::stack ∧ Refused w i txId f f'
  alone : ∀ f f' stack i txId, (nesting w).Reaches start (f::stack) → Transits f i txId → (nesting w).Step (f::stack) (f'::stack) →
    w.maxDepth i ≤ nested i txId (f::stack)

/-- Effects run effects only of transactions that are not yet at their limit, and call the
transitions of these only while all effects together are below it too. -/
structure CallsWithin (w : Process A K Context Data) (start : Frame A K Context Data) : Prop where
  effects : ∀ f stack i txId, (nesting w).Reaches start (f::stack) → Unchecked w f i txId → (nested i txId (f::stack) : Int) < w.maxDepth i
  transitions : ∀ f stack i txId, (nesting w).Reaches start (f::stack) → Transits f i txId →
    w.maxDepth i ≤ together w (w.closedClass i) (f::stack) → w.maxDepth i ≤ nested i txId (f::stack)

end

def Frame.depths : Frame A K Context Data → K → Int
  | .method _ depths _ => depths
  | .effect _ depths _ _ => depths

/-- What is known where a method asks for an effect: a transition has passed its guard. -/
def Process.Checked (w : Process A K Context Data) (depths : K → Int) : ActorCall A Data → Prop
  | .transitionAsync i _ _ _ => depths (w.closedClass i) < w.maxDepth i
  | .runEffectAsync _ _ _ _ => True

def Frame.Deepens (w : Process A K Context Data) : Frame A K Context Data → Prop
  | .method call depths rest => rest.Asks (Op.Deepens call.transactionId (depths (w.closedClass call.actor)) (w.Checked depths call))
  | .effect _ _ _ _ => True

theorem bodyDeepens (w : Process A K Context Data) (depths : K → Int) (call : ActorCall A Data) : (w.called depths call).Deepens w := by
  cases call with
  | transitionAsync i txId eventName input => exact Program.asksBind transitionDeepens (fun _ => trivial)
  | runEffectAsync i txId effectName payload => exact Program.asksBind effectDeepens (fun _ => trivial)

section
variable {w : Process A K Context Data} {stack below : List (Frame A K Context Data)} {f f' g : Frame A K Context Data}
variable {i : A} {txId : String} {k : K}

theorem resumesRuns {r} (resumes : Resumes f r f') : f'.runs = f.runs := by
  cases resumes <;> rfl

theorem nestedCons [DecidableEq A] : nested i txId (f::below) = nested i txId below + if f.runs = some (i,txId) then 1 else 0 := by
  simp [nested,List.countP_cons]

theorem movesRuns (moves : w.Moves f f') : f'.runs = f.runs := by
  cases moves <;> rfl

variable [DecidableEq K]

/-- The counter of a flow is the number of effects that run below it, of all actors of its
class, and a method asks for effects that are one deeper. -/
structure Counted (w : Process A K Context Data) (below : List (Frame A K Context Data)) (f : Frame A K Context Data) : Prop where
  depths : ∀ k, f.depths k = together w k (f::below)
  deepens : f.Deepens w

theorem togetherMethod {call : ActorCall A Data} {depths rest} : together w k (.method call depths rest::below) = together w k below :=
  List.countP_cons_of_neg (by simp [Frame.runs])

theorem togetherEffect {depths request rest} : together w k (.effect i depths request rest::below) =
    together w k below + if w.closedClass i = k then 1 else 0 := by
  simp [together,List.countP_cons,Frame.runs]

theorem enteredCounted {depths : K → Int} {depth : Int} {name : String} {request : EffectRequest Context Data}
    (counted : ∀ k, depths k = together w k below) (deeper : depth = depths (w.closedClass i) + 1) :
    Counted w below (w.entered i depths depth name request) := by
  refine ⟨fun k => ?_,trivial⟩
  rw [Process.entered,togetherEffect,Frame.depths]
  by_cases same : w.closedClass i = k
  · subst same
    rw [Function.update_self,deeper,counted,if_pos rfl]
    rfl
  · rw [Function.update_of_ne (Ne.symm same),counted,if_neg same]
    rfl

theorem countedMoves (counted : Counted w below f) (moves : w.Moves f f') : Counted w below f' := by
  obtain ⟨depths,deepens⟩ := counted
  cases moves with
  | replied op other r => exact ⟨depths,deepens.2 r⟩
  | own r => exact ⟨depths,trivial⟩
  | unknown missing => exact ⟨depths,trivial⟩
  | guarded guard => exact ⟨depths,trivial⟩

theorem countedCalls (counted : Counted w below f) (calls : w.CallsFrame f g) : Counted w (f::below) g := by
  obtain ⟨depths,deepens⟩ := counted
  cases calls with
  | effect => exact enteredCounted depths deepens.1.1
  | runEffect found => exact enteredCounted depths rfl
  | actor passed =>
    refine ⟨fun k => ?_,bodyDeepens _ _ _⟩
    rw [Process.called,togetherMethod]
    exact depths k

theorem countedResumes {r} (counted : Counted w below f) (resumes : Resumes f r f') : Counted w below f' := by
  obtain ⟨depths,deepens⟩ := counted
  cases resumes with
  | effect r => exact ⟨depths,deepens.2 _⟩
  | runEffect r => exact ⟨depths,trivial⟩
  | actor r => exact ⟨depths,trivial⟩

theorem reachesCounted {call : ActorCall A Data} (reaches : (nesting w).Reaches (w.start call) stack) :
    Frames.Stacked (Counted w) stack := by
  refine Frames.reachesStacked ?_ ?_ ?_ ⟨fun k => ?_,bodyDeepens _ _ _⟩ reaches
  · intro f f' below counted moves
    exact countedMoves counted moves
  · intro f g below counted calls
    exact countedCalls counted calls
  · intro f r f' below counted resumes
    exact countedResumes counted resumes
  · have outside : together w k [w.called (fun _ => 0) call] = 0 := togetherMethod
    rw [outside]
    rfl

/-- A transition that is asked for comes back at once exactly where all effects together have
reached the limit. -/
theorem transitsStep {next : List (Frame A K Context Data)} (counted : Counted w below f) (transits : Transits f i txId)
    (step : (nesting w).Step (f::below) next) :
    (w.maxDepth i ≤ together w (w.closedClass i) (f::below) ∧ ∃ f', next = f'::below ∧ Refused w i txId f f') ∨
      (together w (w.closedClass i) (f::below) < w.maxDepth i ∧ ∃ g, next = g::f::below) := by
  have shared := counted.depths (w.closedClass i)
  cases transits
  simp only [Frame.depths] at shared
  cases step with
  | own moves =>
    cases moves with
    | guarded guard =>
      rw [shared] at guard
      exact .inl ⟨guard,_,rfl,_,.actor _⟩
  | call calls =>
    cases calls with
    | actor passed =>
      simp only [Process.Guarded,shared] at passed
      exact .inr ⟨by omega,_,rfl⟩
  | ret ends resumes => cases ends

variable [DecidableEq A]

theorem nestedTogether : nested i txId stack ≤ together w (w.closedClass i) stack := by
  refine List.countP_mono_left (fun f _ same => ?_)
  rw [of_decide_eq_true same]
  simp

theorem callsBelow (counted : Counted w below f) (calls : w.CallsFrame f g) (runs : g.runs = some (i,txId))
    (unchecked : Unchecked w f i txId → (nested i txId (f::below) : Int) < w.maxDepth i) :
    (nested i txId (f::below) : Int) < w.maxDepth i := by
  cases calls with
  | @effect call depths name depth request next =>
    obtain ⟨_,same,checked⟩ := counted.deepens.1
    cases Option.some.inj runs
    cases call with
    | transitionAsync i t eventName input =>
      have passed : depths (w.closedClass i) < w.maxDepth i := checked
      have shared := counted.depths (w.closedClass i)
      have fewer : nested i request.transactionId
          (.method (.transitionAsync i t eventName input) depths (Program.ask (.effect name depth request) next)::below) ≤
          together w (w.closedClass i)
            (.method (.transitionAsync i t eventName input) depths (Program.ask (.effect name depth request) next)::below) :=
        nestedTogether
      simp only [Frame.depths] at shared
      exact lt_of_le_of_lt (Int.ofNat_le.mpr fewer) (shared ▸ passed)
    | runEffectAsync i t effectName payload =>
      refine unchecked ?_
      rw [same]
      exact .runEffectAsync
  | runEffect found =>
    cases Option.some.inj runs
    exact unchecked (.runEffect found)
  | actor passed => cases runs

theorem withinBounded {call : ActorCall A Data} (within : CallsWithin w (w.start call)) (reaches : (nesting w).Reaches (w.start call) stack) :
    0 < nested i txId stack → (nested i txId stack : Int) ≤ w.maxDepth i := by
  induction reaches with
  | refl => exact fun some_ => absurd some_ (by simp [nested,Process.start,Process.called,Frame.runs])
  | tail before step ih =>
    cases step with
    | own moves =>
      rw [nestedCons] at ih ⊢
      rwa [movesRuns moves]
    | @call f g below calls =>
      intro some_
      rw [nestedCons] at some_ ⊢
      split at some_
      · rename_i runs
        have counted := (reachesCounted before).1
        have room := callsBelow counted calls runs (fun unchecked => within.effects _ _ _ _ before unchecked)
        rw [if_pos runs]
        exact_mod_cast room
      · rename_i other
        rw [if_neg other]
        exact ih some_
    | @ret f f' g r below ends resumes =>
      intro some_
      rw [nestedCons,resumesRuns resumes] at some_ ⊢
      have longer : nested i txId (g::f::below) = nested i txId below + (if f.runs = some (i,txId) then 1 else 0) +
          if g.runs = some (i,txId) then 1 else 0 := by rw [nestedCons,nestedCons]
      have bound := ih (by omega)
      omega

/-- The chains of a transaction are bounded and independent exactly where its effects keep to
the limit by themselves, and no others are in the way of its transitions. -/
theorem effectChains (w : Process A K Context Data) (call : ActorCall A Data) :
    ChainsBounded w (w.start call) ↔ CallsWithin w (w.start call) := by
  constructor
  · intro holds
    constructor
    · intro f stack i txId reaches unchecked
      have deeper : ∃ g, w.CallsFrame f g ∧ g.runs = some (i,txId) := by
        have counted := (reachesCounted reaches).1
        cases unchecked with
        | @runEffectAsync _ _ _ _ _ _ _ request =>
          have same : request.transactionId = txId := counted.deepens.1.2.1
          exact ⟨_,.effect,congrArg (fun t => some (i,t)) same⟩
        | runEffect found => exact ⟨_,.runEffect found,rfl⟩
      obtain ⟨g,calls,runs⟩ := deeper
      have bound := holds.bounded (g::f::stack) i txId (reaches.tail (.call calls))
      rw [nestedCons,if_pos runs] at bound
      have limit := bound (Nat.succ_pos _)
      omega
    · intro f stack i txId reaches transits full
      have counted := (reachesCounted reaches).1
      have refusal : ∃ f', (nesting w).Step (f::stack) (f'::stack) := by
        have shared := counted.depths (w.closedClass i)
        cases transits
        exact ⟨_,.own (.guarded (full.trans (le_of_eq shared.symm)))⟩
      obtain ⟨f',step⟩ := refusal
      exact holds.alone f f' stack i txId reaches transits step
  · intro within
    constructor
    · intro stack i txId reaches
      exact withinBounded within reaches
    · intro f stack next i txId reaches full awaits step
      have counted := (reachesCounted reaches).1
      cases awaits with
      | effect =>
        have room := callsBelow counted (.effect : w.CallsFrame _ _) (congrArg (fun t => some (i,t)) counted.deepens.1.2.1)
          (fun unchecked => by cases unchecked)
        exact absurd full (not_le.mpr room)
      | unchecked runs =>
        have room := within.effects _ _ _ _ reaches runs
        omega
      | transition transits =>
        have more : nested i txId (f::stack) ≤ together w (w.closedClass i) (f::stack) := nestedTogether
        rcases transitsStep counted transits step with ⟨_,refused⟩ | ⟨room,_⟩
        · exact refused
        · omega
    · intro f f' stack i txId reaches transits step
      rcases transitsStep (reachesCounted reaches).1 transits step with ⟨full,_⟩ | ⟨_,g,longer⟩
      · exact within.transitions f stack i txId reaches transits full
      · have lengths := congrArg List.length longer
        simp at lengths

end
/-! A canyon with an echo: one that runs itself, and one that calls to another canyon. -/

def canyon (limit : Int) : MachineDefinition where
  id := "canyon"
  initial := "ledge"
  states := [("ledge",{ id := "ledge", on := [("shout",[{ target := "ledge" }])], entry := ["echo"] }),("error",{ id := "error", type := "final" })]
  maxEffectChainDepth := limit

def canyons (limit : Int) (echo : EffectBody Unit Unit) : Process Unit Unit Unit Unit where
  actor _ := { machine := canyon limit, registry := { effects := ["echo"] }, defaultContext := (), isNull := fun _ => true }
  closedClass _ := ()
  effects _ _ _ := echo
  rounds := 1

def echo : EffectBody Unit Unit := .ask (.runEffect "echo" none) (fun _ => .done ())

def answer : EffectBody Unit Unit := .ask (.actor (.transitionAsync () "u" "shout" none)) (fun _ => .done ())

def shout : ActorCall Unit Unit := .transitionAsync () "t" "shout" none

def echoRequest : EffectRequest Unit Unit := { transactionId := "t", context := (), eventName := "shout", state := leaf "ledge" }

/-- What is left of the call after its guard. -/
def shouted (limit : Int) (body : EffectBody Unit Unit) : Frame Unit Unit Unit Unit :=
  .method shout (fun _ => 0) ((do
    let record ← ((canyons limit body).actor ()).loadOrCreate "t" "shout" 0
    ((canyons limit body).actor ()).transitionOn "t" "shout" 1 0 none record) >>= fun r => pure (some r))

theorem shoutOpens {limit : Int} (body : EffectBody Unit Unit) (room : 0 < limit) :
    (canyons limit body).start shout = shouted limit body := by
  have passed : ¬limit ≤ 0 := by omega
  exact congrArg (fun p => Frame.method shout (fun _ => 0) (p >>= fun r => pure (some r))) (if_neg passed)

theorem echoStarts {limit : Int} (body : EffectBody Unit Unit) (room : 0 < limit) :
    ∃ depths below, (nesting (canyons limit body)).Reaches ((canyons limit body).start shout) (.effect () depths echoRequest body::below) ∧
      depths () = 1 ∧ nested () "t" below = 0 ∧ nested () "u" below = 0 := by
  have read : (nesting (canyons limit body)).Step [shouted limit body] _ := .own (.replied (.getTransaction "t") rfl (.ok none))
  have clock := ReflTransGen.single read |>.tail (.own (.replied .nowMs rfl (0 : Int)))
  have created := clock.tail (.own (.replied (.createTransaction _) rfl (.ok ())))
  rw [shoutOpens body room]
  exact ⟨_,_,created.tail (.call .effect),rfl,rfl,rfl⟩

theorem echoes (depth : Nat) : ∃ depths below,
    (nesting (canyons 25 echo)).Reaches ((canyons 25 echo).start shout) (.effect () depths echoRequest echo::below) ∧
      nested () "t" below = depth := by
  induction depth with
  | zero =>
    obtain ⟨depths,below,reaches,_,outside,_⟩ := echoStarts echo (by decide : (0 : Int) < 25)
    exact ⟨depths,below,reaches,outside⟩
  | succ depth ih =>
    obtain ⟨depths,below,reaches,high⟩ := ih
    refine ⟨_,_,reaches.tail (.call (.runEffect rfl)),?_⟩
    rw [nestedCons,high]
    rfl

theorem effectChainsEcho : Accepted (canyon 25) ∧ Accepted (canyon 1) ∧ ¬ChainsBounded (canyons 25 echo) ((canyons 25 echo).start shout) ∧
    ¬ChainsBounded (canyons 1 answer) ((canyons 1 answer).start shout) := by
  refine ⟨by decide,by decide,?_,?_⟩
  · intro holds
    obtain ⟨depths,below,reaches,high⟩ := echoes 25
    have bound := holds.bounded _ () "t" reaches
    rw [nestedCons,high,if_pos (by simp [Frame.runs,echoRequest])] at bound
    exact absurd (bound (by decide)) (by decide)
  · intro holds
    obtain ⟨depths,below,reaches,one,_,none_⟩ := echoStarts answer (by decide : (0 : Int) < 1)
    have full := holds.alone _ _ below () "u" reaches .transitionAsync (.own (.guarded (le_of_eq one.symm)))
    rw [nestedCons,none_,if_neg (by simp [Frame.runs,echoRequest])] at full
    exact absurd full (by decide)

end Dfsm.Csharp
