import Dfsm.Rust.Operations
import Dfsm.Go.Actor

/-! The actor of the Rust SDK: a transition with its retries, its circuit breaker and its
saga, the effects it runs, and the clean-up that operators force. -/
namespace Dfsm.Rust
open Keyed (Record)
open Go (leaf unqualified)

structure RegisteredTransition where
  policy : Option PartialTransitionPolicy := none

/-- What is registered, by name and in the order of the hash maps; the rest stands for
`serde_json` at the types of the contexts. -/
structure FSMRegistry (Context Data : Type) where
  transitions : Record RegisteredTransition := []
  compensations : Record Unit := []
  effects : Record Unit := []
  hooks : HookType → List String := fun _ => []
  globalPolicy : Option PartialTransitionPolicy := none
  defaultContext : Context
  contextJson : Context → String
  parseContext : String → Option Context
  fromValue : Data → Option Context
  valueText : Data → String
  parseValue : String → Option Data

/-- By its name, by what follows its last dot, or without a dot by what precedes it. -/
def find {α : Type} (map : Record α) (name : String) : Option (String × α) :=
  match Keyed.get map name with
  | some found => some (name,found)
  | none => match unqualified name with
    | some short => (Keyed.get map short).map (short,·)
    | none => map.find? (fun e => ("." ++ name).toList.isSuffixOf e.1.toList)

namespace FSMRegistry
variable {Context Data : Type} (r : FSMRegistry Context Data)

def findTransition (name : String) : Option (String × RegisteredTransition) := find r.transitions name
def findCompensate (name : String) : Option String := (find r.compensations name).map (·.1)
def findEffect (name : String) : Option String := (find r.effects name).map (·.1)

def loadContext (contextJson : String) : Context :=
  if contextJson = "" ∨ contextJson = "{}" then r.defaultContext else (r.parseContext contextJson).getD r.defaultContext

end FSMRegistry

structure DfsmActor (Context Data : Type) where
  machine : MachineDefinition
  registry : FSMRegistry Context Data

structure TransitionExecutionResult (Data : Type) where
  transactionId : String
  eventName : String
  previousState : StateValue
  currentState : StateValue
  status : TransactionStatus
  version : Int
  outputValue : Option Data
  compensatedSteps : Nat
  rollbackOccurred : Bool

inductive ForceCleanUpAction where
  | Compensate | MarkFail | Delete | Continue
  deriving DecidableEq, Repr

structure ForceCleanUpOptions where
  transactionIds : List String := []
  olderThanMs : Option Int := none
  stuckOnly : Bool := false
  action : Option ForceCleanUpAction := none
  dryRun : Bool := false
  limit : Option Nat := none

structure ForceCleanUpResult where
  matchedCount : Nat
  processedCount : Nat
  dryRun : Bool
  action : Option ForceCleanUpAction
  affectedTransactionIds : List String

variable {Context Data : Type}

/-- The context and its text, as the step goes on. -/
structure Carried (Context : Type) where
  context : Context
  contextJson : String

/-- How the handler ended after its attempts. -/
structure Tried (Context Data : Type) where
  carried : Carried Context
  lastErr : Option DfsmError := none
  output : Option Data := none
  attempts : Nat

/-- The match that is taken, and what goes with it. -/
structure Chosen where
  matched : MatchedTransition
  handlerName : String
  registered : Option String
  policy : TransitionPolicy

namespace DfsmActor
open Act
variable (a : DfsmActor Context Data) (txId event : String)

def fireHook (hookType : HookType) (payload : HookEvent) : Act Context Data Unit :=
  (a.registry.hooks hookType).foldlM (fun _ h => ask (.hook h payload)) ()

/-- The request carries the depth on to its runner; the error an effect returns is dropped
by every caller. -/
def runEffectInternal (depth : Nat) (userCtx : Context) (state : StateValue) (effectName : String) : Act Context Data Unit :=
  match a.registry.findEffect effectName with
  | some name => do
    let _ ← ask (.effect name depth { transactionId := txId, context := userCtx, eventName := event, state })
  | none => pure ()

def runEffects (depth : Nat) (userCtx : Context) (state : StateValue) (effects : List String) : Act Context Data Unit :=
  effects.foldlM (fun _ eff => a.runEffectInternal txId event depth userCtx state eff) ()

def create (depth : Nat) : Act Context Data TransactionRecord := do
  let initRes := resolveInitialState a.machine
  let now ← ask .nowMs
  let initialRec : TransactionRecord := {
    transactionId := txId, machineId := a.machine.id, currentState := initRes.stateValue, status := .IDLE
    contextJson := a.registry.contextJson a.registry.defaultContext, version := 1, createdAt := now, updatedAt := now }
  orReturn (← ask (.createTransaction initialRec))
  a.fireHook .onStart (.onStart txId initialRec.currentState)
  a.runEffects txId event depth a.registry.defaultContext initialRec.currentState initRes.entryEffects
  pure initialRec

def loadOrCreate (depth : Nat) : Act Context Data TransactionRecord := do
  match ← orReturn (← ask (.getTransaction txId)) with
  | some r => pure r
  | none => a.create txId event depth

def choose (matched : MatchedTransition) : Chosen :=
  let handlerName := matched.edge.transition.getD event
  let regTx := a.registry.findTransition handlerName
  { matched, handlerName, registered := regTx.map (·.1)
    policy := merge [regTx.bind (·.2.policy),matched.policy,a.machine.defaults,a.registry.globalPolicy] }

/-- The record as it has been marked, and stored. -/
def markInFlight (r : TransactionRecord) : Act Context Data TransactionRecord := do
  let updatedAt ← ask .nowMs
  let marked := { r with status := .IN_FLIGHT, updatedAt, version := r.version + 1 }
  orReturn (← ask (.updateTransaction marked r.version))
  pure marked

def loadBreaker (chosen : Chosen) : Act Context Data (Option Nat) :=
  match chosen.policy.circuitBreaker with
  | none => pure none
  | some cbPol =>
    if cbPol.enabled then do pure (some (← ask (.loadBreaker chosen.handlerName cbPol)))
    else pure none

def beforeExecution (handlerName : String) : Option Nat → Act Context Data Unit
  | none => pure ()
  | some breaker => do
    let (cb,now) ← ask (.lockBreaker breaker .beforeExecution)
    ask (.unlockBreaker breaker (cb.beforeExecution now).1)
    match (cb.beforeExecution now).2 with
    | some waitMs => .fail (.returned (.circuitOpen handlerName waitMs))
    | none => pure ()

def onSuccess : Option Nat → Act Context Data Unit
  | none => pure ()
  | some breaker => do
    let (cb,_) ← ask (.lockBreaker breaker .onSuccess)
    ask (.unlockBreaker breaker cb.onSuccess)

def onFailure : Option Nat → Act Context Data Unit
  | none => pure ()
  | some breaker => do
    let (cb,now) ← ask (.lockBreaker breaker .onFailure)
    ask (.unlockBreaker breaker (cb.onFailure now))

/-- What the handler's new context makes of the step, where it has the type of contexts. -/
def updatedContext (carried : Carried Context) (updatedCtx : Option Data) : Carried Context :=
  match updatedCtx with
  | none => carried
  | some newCtxVal => match a.registry.fromValue newCtxVal with
    | none => carried
    | some context => { context, contextJson := a.registry.valueText newCtxVal }

/-- The attempts that are left, after `made` of them. -/
def attemptLoop (breaker : Option Nat) (name : String) (call : TransitionCall Context Data) (carried : Carried Context) :
    Nat → Nat → Option DfsmError → Act Context Data (Tried Context Data)
  | 0, made, lastErr => pure { carried, lastErr, attempts := made }
  | left+1, made, _ => do
    match ← ask (.handler name call) with
    | .ok (updatedCtx,output) =>
      onSuccess breaker
      pure { carried := a.updatedContext carried updatedCtx, output, attempts := made+1 }
    | .error e =>
      onFailure breaker
      if left ≠ 0 then ask (.sleep (made+1))
      attemptLoop breaker name call carried left (made+1) (some e)

def executeHandler (input : Option Data) (chosen : Chosen) (breaker : Option Nat) (carried : Carried Context) (currentState : StateValue) :
    Act Context Data (Tried Context Data) :=
  match chosen.registered with
  | some name => do
    beforeExecution chosen.handlerName breaker
    a.attemptLoop breaker name { txId, context := carried.context, input, currentState, eventName := event } carried
      chosen.policy.maxAttempts 0 none
  | none => pure { carried, attempts := 1 }

/-- The loop has no bound in the source. -/
def cascadeOnDone : Nat → StateValue → Except Stop StateValue
  | 0, _ => .error .running
  | rounds+1, currentState => match findPendingOnDone a.machine currentState with
    | none => .ok currentState
    | some pending => match pending.edge.target with
      | none => .ok currentState
      | some target => cascadeOnDone rounds (applyTargetTransition a.machine currentState pending.sourcePath target).nextStateValue

/-- It is the edge that says whether there is a step to push. -/
def pushStep (input : Option Data) (chosen : Chosen) (prevState targetState : StateValue) (originalCtxJson : String) :
    Act Context Data Unit :=
  match chosen.matched.edge.compensate with
  | none => pure ()
  | some compName => do
    let stamp ← ask .nowMs
    let timestamp ← ask .nowMs
    orReturn (← ask (.pushSagaStep txId {
      stepId := s!"{txId}-{stamp}", stepName := chosen.handlerName, compensateHandler := compName, fromState := prevState, targetState
      inputSnapshotJson := input.map a.registry.valueText, contextBeforeJson := some originalCtxJson, timestamp }))

/-- Only a final state at the top completes the transaction. -/
def settledStatus (currentState : StateValue) : TransactionStatus :=
  match currentState with
  | .str leaf => if (Keyed.get a.machine.states leaf).any (·.isFinal) then .COMPLETED else .IDLE
  | .obj _ => .IDLE

def targetName (matched : MatchedTransition) : String := matched.edge.target.getD (matched.sourcePath.getLastD "")

def notifySuccess (depth : Nat) (r : TransactionRecord) (prevState : StateValue) (currentCtx : Context) (applied : AppliedTransition) :
    Act Context Data Unit := do
  a.fireHook .afterTransition (.afterTransition txId event prevState r.currentState r.status 0)
  if r.status = .COMPLETED then do
    a.fireHook .onComplete (.onComplete txId r.currentState)
    a.fireHook .onTerminal (.onTerminal txId r.currentState r.status)
  a.runEffects txId event depth currentCtx r.currentState applied.exitEffects
  a.runEffects txId event depth currentCtx r.currentState applied.entryEffects

/-- From a handler that succeeded to the result. -/
def succeed (rounds depth : Nat) (input : Option Data) (durationMs : Int) (chosen : Chosen) (r : TransactionRecord)
    (tried : Tried Context Data) : Act Context Data (TransitionExecutionResult Data) := do
  let applied := applyTargetTransition a.machine r.currentState chosen.matched.sourcePath (targetName chosen.matched)
  a.pushStep txId input chosen r.currentState applied.nextStateValue r.contextJson
  let settled ← .ofExcept (a.cascadeOnDone rounds applied.nextStateValue)
  let updatedAt ← ask .nowMs
  let committed := { r with
    currentState := settled, contextJson := tried.carried.contextJson, status := a.settledStatus settled, updatedAt, version := r.version + 1 }
  orReturn (← ask (.updateTransaction committed r.version))
  ask (.record {
    transactionId := txId, machineId := a.machine.id, eventName := event, handlerName := chosen.handlerName, attempts := tried.attempts
    outcome := .SUCCESS, durationMs, previousState := r.currentState, currentState := settled })
  a.notifySuccess txId event depth committed r.currentState tried.carried.context applied
  pure { transactionId := txId, eventName := event, previousState := r.currentState, currentState := settled, status := committed.status
         version := committed.version, outputValue := tried.output, compensatedSteps := 0, rollbackOccurred := false }

/-- The compensation of one step, where its handler is registered. -/
def compensateStep (step : SagaStepRecord) (carried : Carried Context) : Act Context Data (Carried Context) :=
  match a.registry.findCompensate step.compensateHandler with
  | none => pure carried
  | some name => do
    ask (.compensation name {
      transactionId := txId, context := carried.context, stepName := step.stepName
      inputSnapshot := step.inputSnapshotJson.bind a.registry.parseValue, fromState := step.fromState, targetState := step.targetState })
    match step.contextBeforeJson with
    | none => pure carried
    | some ctxBefore => match a.registry.parseContext ctxBefore with
      | none => pure carried
      | some context => pure { context, contextJson := ctxBefore }

/-- At most as many rounds as there were steps on the stack; the number of steps compensated
is counted up. -/
def unwind : Nat → Carried Context → Nat → Act Context Data (Carried Context × Nat)
  | 0, carried, compensated => pure (carried,compensated)
  | remaining+1, carried, compensated => do
    match ← orReturn (← ask (.popSagaStep txId)) with
    | none => pure (carried,compensated)
    | some step =>
      let carried ← a.compensateStep txId step carried
      a.fireHook .onCompensate (.onCompensate txId step.stepName step.fromState step.targetState remaining)
      unwind remaining carried (compensated+1)

def rollBack (rollbackTriggered : Bool) (carried : Carried Context) : Act Context Data (Carried Context × Nat) :=
  if rollbackTriggered then do
    let stack ← orReturn (← ask (.getSagaStack txId))
    a.unwind txId stack.length carried 0
  else pure (carried,0)

/-- From a handler that failed to the result. -/
def fail (durationMs : Int) (chosen : Chosen) (r : TransactionRecord) (tried : Tried Context Data) (lastErr : DfsmError) :
    Act Context Data (TransitionExecutionResult Data) := do
  ask (.record {
    transactionId := txId, machineId := a.machine.id, eventName := event, handlerName := chosen.handlerName, attempts := tried.attempts
    outcome := .FAILED lastErr, durationMs, previousState := r.currentState, currentState := r.currentState })
  let rollbackTriggered := chosen.policy.onFail.any (·.compensate)
  let (carried,compensatedSteps) ← a.rollBack txId rollbackTriggered tried.carried
  let failTarget := (chosen.policy.onFail.bind (·.target)).getD "error"
  let failApplied := applyTargetTransition a.machine r.currentState chosen.matched.sourcePath failTarget
  let updatedAt ← ask .nowMs
  let settled := { r with
    currentState := failApplied.nextStateValue, contextJson := carried.contextJson
    status := if rollbackTriggered then .COMPENSATED else .FAILED, updatedAt, version := r.version + 1 }
  orReturn (← ask (.updateTransaction settled r.version))
  a.fireHook .onTerminal (.onTerminal txId settled.currentState settled.status)
  pure { transactionId := txId, eventName := event, previousState := settled.currentState, currentState := settled.currentState
         status := settled.status, version := settled.version, outputValue := none, compensatedSteps, rollbackOccurred := rollbackTriggered }

/-- From the record that was marked to the result. -/
def execute (rounds depth : Nat) (input : Option Data) (chosen : Chosen) (marked : TransactionRecord) :
    Act Context Data (TransitionExecutionResult Data) := do
  let breaker ← loadBreaker chosen
  let startTime ← ask .instantNow
  let carried := { context := a.registry.loadContext marked.contextJson, contextJson := marked.contextJson }
  let tried ← a.executeHandler txId event input chosen breaker carried marked.currentState
  let ended ← ask .instantNow
  match tried.lastErr with
  | none => a.succeed txId event rounds depth input (ended - startTime) chosen marked tried
  | some lastErr => a.fail txId event (ended - startTime) chosen marked tried lastErr

/-- From the record on; `matched_list[0]` is the match that is taken. -/
def transitionOn (rounds depth : Nat) (input : Option Data) (r : TransactionRecord) :
    Act Context Data (TransitionExecutionResult Data) :=
  if r.status = .COMPLETED ∨ r.status = .FAILED then .fail (.returned (.alreadyTerminal r.currentState event txId r.status))
  else match resolveTransitionsForEvent a.machine r.currentState event with
    | [] => .fail (.returned (.noTransition r.currentState event a.machine.id))
    | matched::_ => do
      let chosen := a.choose event matched
      a.fireHook .beforeTransition (.beforeTransition txId r.currentState event)
      let marked ← markInFlight r
      a.execute txId event rounds depth input chosen marked

/-- Completions are followed for as many rounds. -/
def transitionInternal (rounds : Nat) (input : Option Data) (depth : Nat) : Act Context Data (TransitionExecutionResult Data) :=
  if a.machine.maxEffectChainDepth ≤ depth then .fail (.returned (.maxEffectChainDepthExceeded a.machine.maxEffectChainDepth txId))
  else do
    let r ← a.loadOrCreate txId event depth
    a.transitionOn txId event rounds depth input r

def transition (rounds : Nat) (input : Option Data) : Act Context Data (TransitionExecutionResult Data) :=
  a.transitionInternal txId event rounds input 0

def transitionRaw (rounds : Nat) (input : Option Data) : Act Context Data (TransitionExecutionResult Data) :=
  a.transitionInternal txId event rounds input 0

/-! Clean-up. -/

def readCandidates : List String → Act Context Data (List TransactionRecord)
  | [] => pure []
  | id::rest => do
    match ← orReturn (← ask (.getTransaction id)) with
    | some r => do pure (r::(← readCandidates rest))
    | none => readCandidates rest

def isMatched (opts : ForceCleanUpOptions) (now : Int) (r : TransactionRecord) : Bool :=
  !opts.olderThanMs.any (fun olderThan => now - r.updatedAt < olderThan) &&
    !(opts.stuckOnly && r.status != .IN_FLIGHT && r.status != .COMPENSATING)

/-- Pops until the stack is empty, however many steps are pushed meanwhile. -/
def compensateAll (r : TransactionRecord) : Nat → Act Context Data Unit
  | 0 => .fail .running
  | rounds+1 => do
    match ← orReturn (← ask (.popSagaStep r.transactionId)) with
    | none => pure ()
    | some step =>
      if let some name := a.registry.findCompensate step.compensateHandler then
        ask (.compensation name {
          transactionId := r.transactionId, context := (a.registry.parseContext r.contextJson).getD a.registry.defaultContext
          stepName := step.stepName, inputSnapshot := step.inputSnapshotJson.bind a.registry.parseValue
          fromState := step.fromState, targetState := step.targetState })
      compensateAll r rounds

def endWith (r : TransactionRecord) (now : Int) (status : TransactionStatus) (currentState : StateValue) : Act Context Data Unit := do
  orReturn (← ask (.updateTransaction { r with status, currentState, updatedAt := now, version := r.version + 1 } r.version))

def processOne (rounds : Nat) (action : ForceCleanUpAction) (now : Int) (r : TransactionRecord) : Act Context Data Unit :=
  match action with
  | .Delete => do orReturn (← ask (.deleteTransaction r.transactionId))
  | .MarkFail => endWith r now .FAILED (leaf "error")
  | .Compensate => do
    a.compensateAll r rounds
    endWith r now .FAILED (leaf "error")
  | .Continue => endWith r now .IDLE r.currentState

def candidates (opts : ForceCleanUpOptions) : Act Context Data (List TransactionRecord) :=
  if opts.transactionIds.isEmpty then do orReturn (← ask (.listActiveTransactions a.machine.id (opts.limit.getD 500)))
  else readCandidates opts.transactionIds

def forceCleanup (rounds : Nat) (opts : ForceCleanUpOptions) : Act Context Data ForceCleanUpResult := do
  let candidates ← a.candidates opts
  let now ← ask .nowMs
  let matched := candidates.filter (isMatched opts now)
  let affectedIds := matched.map (·.transactionId)
  if opts.dryRun then
    pure { matchedCount := matched.length, processedCount := 0, dryRun := true, action := opts.action, affectedTransactionIds := affectedIds }
  else do
    let action := opts.action.getD .MarkFail
    let processed ← matched.foldlM (fun processed r => do
      a.processOne rounds action now r
      pure (processed+1)) 0
    pure { matchedCount := processed, processedCount := processed, dryRun := false, action := some action, affectedTransactionIds := affectedIds }

end DfsmActor
end Dfsm.Rust
