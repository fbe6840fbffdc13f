import Dfsm.Engine.Accounting
import Dfsm.Runtime.Requests

/-! The effects of a broadcast in which a region's step fails after others have succeeded:
what is queued once the fallback target is entered, against the net change from the state
before the broadcast to the one that is committed. -/
namespace Dfsm
open Keyed (Record)
open Program Protocol

variable {Context Data : Type}

/-- One move of the configuration; a step without a target stays where it is. -/
structure Shift where
  before : StateValue
  applied : Option AppliedTransition
  place : String

namespace Shift

def after (m : Shift) : StateValue := (m.applied.map (·.nextStateValue)).getD m.before

def exited (m : Shift) : List StateNodeIR := (m.applied.map (·.exited)).getD []

def entered (m : Shift) : List StateNodeIR := (m.applied.map (·.entered)).getD []

/-- States are told apart by their paths. -/
def leaves (m : Shift) (path : String) : Bool := m.exited.any (fun node => node.path = path)

def enters (m : Shift) (path : String) : Bool := m.entered.any (fun node => node.path = path)

end Shift

/-- A region's step that succeeded: its move, and the effects of its edge and its handler. -/
structure RegionStep (Data : Type) where
  move : Shift
  own : List (EffectInvocation Data)

/-- An effect by what it belongs to: a state left, a step, a state entered. -/
inductive Occurrence (Data : Type) where
  | exit (node : StateNodeIR)
  | own (effects : List (EffectInvocation Data))
  | entry (node : StateNodeIR)

def Occurrence.effects : Occurrence Data → List (EffectInvocation Data)
  | .exit node => Actor.named node.exit
  | .own effects => effects
  | .entry node => Actor.named node.entry

/-! The moves of a broadcast, from what its handlers returned. -/

namespace Actor
variable (actor : Actor)

def stepOf (m : MatchedTransition) (output : TransitionOutput Context Data) (s : StateValue) : Option (RegionStep Data) :=
  match actor.binding m.sourceNode.path m.edge.event with
  | .error _ => none
  | .ok binding => match given (output.targetState.or binding.edge.target) with
    | none => some ⟨⟨s,none,m.sourceNode.path⟩,named binding.edge.effects ++ output.effects⟩
    | some target => (applyTargetTransition actor.machine.toRawMachine s m.sourceNode.path target).map (fun applied =>
        ⟨⟨s,some applied,applied.targetPath⟩,named binding.edge.effects ++ output.effects⟩)

def fallOf (m : MatchedTransition) (s : StateValue) : Option Shift :=
  match actor.binding m.sourceNode.path m.edge.event with
  | .error _ => none
  | .ok binding => (applyTargetTransition actor.machine.toRawMachine s m.sourceNode.path
      ((given binding.onFailTarget).getD "error")).map (fun applied => ⟨s,some applied,applied.targetPath⟩)

/-- The steps that succeeded, and the fallback of the one that failed. -/
def broadcast : StateValue → List MatchedTransition → List (Except String (TransitionOutput Context Data)) →
    List (RegionStep Data) × Option Shift
  | s, m::ms, .ok output::results => match actor.stepOf m output s with
    | none => ([],none)
    | some step =>
      let rest := broadcast step.move.after ms results
      (step::rest.1,rest.2)
  | s, m::_, .error _::_ => ([],actor.fallOf m s)
  | _, _, _ => ([],none)

end Actor

/-! The net change: a state that is left counts unless the broadcast itself has entered it, a
state that is entered counts unless the broadcast leaves it again, and so does a step by
the state it ends in. -/

def dueExits (earlier : List Shift) : List Shift → List StateNodeIR
  | [] => []
  | m::rest => m.exited.filter (fun node => node.exit ≠ [] && !earlier.any (·.enters node.path)) ++
    dueExits (earlier ++ [m]) rest

def dueEntries (later : List Shift) : List Shift → List StateNodeIR
  | [] => []
  | m::rest => m.entered.filter (fun node => node.entry ≠ [] && !(rest ++ later).any (·.leaves node.path)) ++
    dueEntries later rest

def dueOwn (fall : Shift) : List (RegionStep Data) → List (List (EffectInvocation Data))
  | [] => []
  | step::rest =>
    (if step.own = [] || (rest.map (·.move) ++ [fall]).any (·.leaves step.move.place) then [] else [step.own]) ++
    dueOwn fall rest

section
variable (steps : List (RegionStep Data)) (fall : Shift)

def earlierMoves : List Shift := steps.map (·.move)

/-- What is due of the steps, and then of the fallback. -/
def netChange : List (Occurrence Data) :=
  (dueExits [] (earlierMoves steps)).map .exit ++ (dueOwn fall steps).map .own ++
    (dueEntries [fall] (earlierMoves steps)).map .entry ++
  ((dueExits (earlierMoves steps) [fall]).map .exit ++ (dueEntries [] [fall]).map .entry)

/-- What is queued: the queue is reset to the effects of the fallback. -/
def queued : List (Occurrence Data) :=
  (fall.exited.filter (fun node => node.exit ≠ [])).map .exit ++ (fall.entered.filter (fun node => node.entry ≠ [])).map .entry

/-- No earlier step has an effect of its own or an entry that is due, and the states with exit
effects that the fallback leaves after the broadcast has entered them are those the
earlier steps have left. -/
structure NothingLost : Prop where
  own : dueOwn fall steps = []
  entries : dueEntries [fall] (earlierMoves steps) = []
  exits : (fall.exited.filter (fun node => node.exit ≠ [] && (earlierMoves steps).any (·.enters node.path))).Perm
    (dueExits [] (earlierMoves steps))

end

theorem loudEffects {l : List StateNodeIR} (read : StateNodeIR → List String) :
    Actor.named (l.flatMap read) = (l.filter (fun node => read node ≠ [])).flatMap (fun node => (Actor.named (read node) : List (EffectInvocation Data))) := by
  induction l with
  | nil => rfl
  | cons node rest ih =>
    rw [List.flatMap_cons,List.filter_cons]
    unfold Actor.named at ih ⊢
    rw [List.map_append,ih]
    split
    · rw [List.flatMap_cons]
    · rename_i silent
      have none : read node = [] := by simpa using silent
      rw [none,List.map_nil,List.nil_append]

theorem queuedEffects (fall : Shift) : (queued fall).flatMap Occurrence.effects =
    (Actor.named (fall.exited.flatMap (·.exit)) ++ Actor.named (fall.entered.flatMap (·.entry)) : List (EffectInvocation Data)) := by
  rw [queued,List.flatMap_append,List.flatMap_map,List.flatMap_map,loudEffects (·.exit),loudEffects (·.entry)]
  rfl

def Occurrence.left : Occurrence Data → Option StateNodeIR
  | .exit node => some node
  | _ => none

def Occurrence.came : Occurrence Data → Option StateNodeIR
  | .entry node => some node
  | _ => none

def Occurrence.did : Occurrence Data → Option (List (EffectInvocation Data))
  | .own effects => some effects
  | _ => none

theorem pickedNone {α β : Type} (l : List α) : l.filterMap (fun _ => (none : Option β)) = [] := by simp

theorem netQueued (steps : List (RegionStep Data)) (fall : Shift) :
    (queued fall).Perm (netChange steps fall) ↔ NothingLost steps fall := by
  have split : (fall.exited.filter (fun node => node.exit ≠ [])).Perm
      (fall.exited.filter (fun node => node.exit ≠ [] && (earlierMoves steps).any (·.enters node.path)) ++
        dueExits (earlierMoves steps) [fall]) := by
    have parts := List.filter_append_perm (fun node => (earlierMoves steps).any (·.enters node.path))
      (fall.exited.filter (fun node => node.exit ≠ []))
    rw [List.filter_filter,List.filter_filter] at parts
    simp only [dueExits,List.append_nil]
    simp only [Bool.and_comm] at parts ⊢
    exact parts.symm
  constructor
  · intro perm
    have exits := perm.filterMap Occurrence.left
    have own := perm.filterMap Occurrence.did
    have entries := perm.filterMap Occurrence.came
    simp only [queued,netChange,List.filterMap_append,List.filterMap_map,Function.comp_def,Occurrence.left,Occurrence.did,
      Occurrence.came,List.filterMap_some,pickedNone,List.append_nil,List.nil_append] at exits own entries
    refine ⟨List.nil_perm.mp own,?_,?_⟩
    · have last : dueEntries [] [fall] = fall.entered.filter (fun node => node.entry ≠ []) := by simp [dueEntries]
      rw [last] at entries
      have sizes := entries.length_eq
      rw [List.length_append] at sizes
      exact List.length_eq_zero_iff.mp (by omega)
    · exact (List.perm_append_right_iff _).mp (split.symm.trans exits)
  · rintro ⟨own,entries,exits⟩
    have last : dueEntries [] [fall] = fall.entered.filter (fun node => node.entry ≠ []) := by simp [dueEntries]
    rw [queued,netChange,own,entries,last,List.map_nil,List.map_nil,List.append_nil,List.append_nil,← List.append_assoc,
      ← List.map_append]
    exact ((split.trans (exits.append_right _)).map _).append_right _

/-! What a run of the loop over the matches queues. -/

def handled : Event (Reply Context Data) → List (Except String (TransitionOutput Context Data))
  | ⟨.handler _ _,r⟩ => [r.1]
  | _ => []

/-- Keeps what the handlers have returned. -/
def replied : Protocol (Reply Context Data) (List (Except String (TransitionOutput Context Data))) where
  allowed _ _ := True
  replies _ _ := True
  after results op r := results ++ handled ⟨op,r⟩

theorem repliedAfter (results : List (Except String (TransitionOutput Context Data))) (es : List (Event (Reply Context Data))) :
    replied.phaseAfter results es = results ++ es.flatMap handled := by
  induction es generalizing results with
  | nil => simp [phaseAfter]
  | cons e rest ih =>
    have first : replied.phaseAfter results (e::rest) = replied.phaseAfter (results ++ handled e) rest := rfl
    rw [first,ih,List.flatMap_cons,List.append_assoc]

def Op.Quiet : Op Context Data → Prop
  | .handler _ _ => False
  | _ => True

section
variable {α β : Type} {results : List (Except String (TransitionOutput Context Data))}

theorem quietReplied {op : Op Context Data} (quiet : op.Quiet) (r) : replied.after results op r = results := by
  cases op <;> first | contradiction | exact List.append_nil _

theorem quietThen {p : Act Context Data α} {f : α → Act Context Data β}
    {post : List (Except String (TransitionOutput Context Data)) → β → Prop} (asks : p.Asks Op.Quiet)
    (rest : ∀ a, replied.Obeys (Ends post) results (f a)) : replied.Obeys (Ends post) results (p >>= f) := by
  have stays : replied.Obeys (fun results' (_ : Except DfsmError α) => results' = results) results p := by
    refine obeysAsks asks ?_ rfl
    rintro results' op rfl quiet
    exact ⟨trivial,fun r _ => quietReplied quiet r⟩
  refine obeysBind (obeysMono stays (fun results' r same => ?_))
  subst same
  cases r with
  | ok a => exact rest a
  | error e => trivial

theorem unwindsQuiet (op : Op Context Data) (unwinds : op.Unwinds) : op.Quiet := by
  cases op <;> first | contradiction | trivial

theorem consultsQuiet (op : Op Context Data) (consults : op.Consults) : op.Quiet := unwindsQuiet op (consultsUnwinds op consults)

end

section
variable {actor : Actor} {snapshot : TransactionSnapshot Context Data} {event : String} {stepStartedAt : Int} {metadata : Metadata Data}
  {results : List (Except String (TransitionOutput Context Data))}

/-- A step that has failed has reset the queue. -/
structure Fell (m : Shift) (w : Working Context Data) : Prop where
  state : w.workingState = m.after
  queue : w.pendingEffects = Actor.named (m.exited.flatMap (·.exit)) ++ Actor.named (m.entered.flatMap (·.entry))

theorem recordReplied {m binding} {input : Data} {before after : Working Context Data} {s : StateValue} (state : after.workingState = s) :
    replied.Obeys (Ends fun results' (w : Working Context Data) => results' = results ∧ w.workingState = s) results
      (Actor.recordCompensation event m binding input before after) := by
  unfold Actor.recordCompensation
  split
  · exact ⟨rfl,state⟩
  · refine obeysAsk trivial (fun createdAt _ => ⟨quietReplied ?_ _,state⟩)
    trivial

theorem succeedReplied {m : MatchedTransition} {input : Data} {binding output} {w : Working Context Data}
    (bound : actor.binding m.sourceNode.path m.edge.event = .ok binding) :
    replied.Obeys (Ends fun results' (w' : Working Context Data) => results' = results ∧
      ∃ step, actor.stepOf m output w.workingState = some step ∧ w'.workingState = step.move.after) results
      (actor.succeedStep event m binding input output w) := by
  unfold Actor.succeedStep Actor.stepOf
  rw [bound]
  dsimp only
  cases given (output.targetState.or binding.edge.target) with
  | none =>
    refine obeysMono (recordReplied rfl) (fun results' r held => ?_)
    cases r with
    | ok w' => exact ⟨held.1,_,rfl,held.2⟩
    | error e => trivial
  | some target =>
    dsimp only
    unfold Actor.applyTarget
    cases applyTargetTransition actor.machine.toRawMachine w.workingState m.sourceNode.path target with
    | none => trivial
    | some applied =>
      refine obeysMono (recordReplied rfl) (fun results' r held => ?_)
      cases r with
      | ok w' => exact ⟨held.1,_,rfl,held.2⟩
      | error e => trivial

theorem failReplied {m : MatchedTransition} {error compensateRequested binding} {w : Working Context Data}
    (bound : actor.binding m.sourceNode.path m.edge.event = .ok binding) :
    replied.Obeys (Ends fun results' (p : Working Context Data × FailedStep) => results' = results ∧
      ∃ fall, actor.fallOf m w.workingState = some fall ∧ Fell fall p.1) results
      (actor.failStep snapshot m error compensateRequested ((given binding.onFailTarget).getD "error") w) := by
  have flush : (Actor.flushCompensations snapshot w).Asks Op.Quiet := by
    unfold Actor.flushCompensations
    split
    · trivial
    · exact asksOne trivial (fun _ => asksOne trivial (fun _ => asksExcept))
  have rollBack {version} : (actor.rollBack snapshot version error compensateRequested w.workingContext).Asks Op.Quiet := by
    unfold Actor.rollBack
    split
    · exact asksOne trivial (fun _ => asksUpdate trivial (fun _ => asksBind (asksMono unwindAsks unwindsQuiet) (fun _ => trivial)))
    · trivial
  unfold Actor.failStep Actor.fallOf
  refine quietThen flush (fun version => quietThen rollBack (fun unwound => ?_))
  rw [bound]
  dsimp only
  unfold Actor.applyTarget
  cases applyTargetTransition actor.machine.toRawMachine w.workingState m.sourceNode.path
      ((given binding.onFailTarget).getD "error") with
  | none => trivial
  | some applied => exact ⟨rfl,_,rfl,⟨rfl,rfl⟩⟩

/-- One more handler has returned, and the step is the one that its result makes. -/
def OneStep (actor : Actor) (m : MatchedTransition) (w : Working Context Data)
    (results results' : List (Except String (TransitionOutput Context Data))) (p : Working Context Data × Option FailedStep) : Prop :=
  (∃ output step, results' = results ++ [.ok output] ∧ p.2 = none ∧ actor.stepOf m output w.workingState = some step ∧
    p.1.workingState = step.move.after) ∨
  ∃ error fall, results' = results ++ [.error error] ∧ p.2.isSome = true ∧ actor.fallOf m w.workingState = some fall ∧ Fell fall p.1

theorem runMatchReplied {m : MatchedTransition} {input : Data} {w : Working Context Data} :
    replied.Obeys (Ends fun results' p => OneStep actor m w results results' p) results
      (actor.runMatch snapshot event stepStartedAt metadata m input w) := by
  unfold Actor.runMatch
  refine obeysExcept (fun binding bound => obeysAsk trivial (fun t0 _ => ?_))
  have clock : replied.after results .now t0 = results := List.append_nil _
  rw [clock]
  refine obeysAsk trivial (fun r _ => ?_)
  obtain ⟨result,attempts⟩ := r
  have outcome : replied.Obeys (Ends fun results' (p : Working Context Data × Option FailedStep × LogOutcome) =>
      OneStep actor m w results results' (p.1,p.2.1)) (results ++ [result])
      (actor.stepOutcome snapshot event m binding input result w) := by
    unfold Actor.stepOutcome
    cases result with
    | ok output =>
      simp only [fallbackCompensate]
      refine obeysSeq _ (succeedReplied bound) (fun results' w' held => ?_)
      obtain ⟨rfl,step,made,state⟩ := held
      exact .inl ⟨output,step,rfl,rfl,made,state⟩
    | error error =>
      simp only [fallbackCompensate]
      refine obeysSeq _ (failReplied bound) (fun results' p held => ?_)
      obtain ⟨rfl,fall,made,fell⟩ := held
      exact .inr ⟨error,fall,rfl,rfl,made,fell⟩
  refine obeysSeq _ outcome (fun results' p held => ?_)
  obtain ⟨next,failed,outcome⟩ := p
  exact quietThen (asksMono telemetryAsks consultsQuiet) (fun _ => held)

theorem runMatchesReplied (matches_ : List (MatchedTransition × Data)) {w : Working Context Data} :
    replied.Obeys (Ends fun results' (p : Working Context Data × Option FailedStep) => ∃ later, results' = results ++ later ∧
      (p.2.isSome = true → ∃ steps fall, actor.broadcast w.workingState (matches_.map Prod.fst) later = (steps,some fall) ∧ Fell fall p.1))
      results (actor.runMatches snapshot event stepStartedAt metadata matches_ w) := by
  induction matches_ generalizing w results with
  | nil => exact ⟨[],by simp,by simp⟩
  | cons x rest ih =>
    obtain ⟨m,input⟩ := x
    refine obeysSeq _ runMatchReplied (fun results' p held => ?_)
    obtain ⟨next,failed⟩ := p
    rcases held with ⟨output,step,rfl,none,made,state⟩ | ⟨error,fall,rfl,some_,made,fell⟩
    · dsimp only at none state
      subst none
      refine obeysMono ih (fun results' r replied => ?_)
      cases r with
      | error e => trivial
      | ok p =>
        obtain ⟨later,rfl,ends⟩ := replied
        refine ⟨.ok output::later,by simp,fun failed => ?_⟩
        obtain ⟨steps,fall,made',fell⟩ := ends failed
        rw [state] at made'
        exact ⟨step::steps,fall,by rw [List.map_cons,Actor.broadcast,made]; simp only [made'],fell⟩
    · cases failed with
      | none => contradiction
      | some failedStep =>
        exact ⟨[.error error],rfl,fun _ => ⟨[],fall,by rw [List.map_cons,Actor.broadcast,made],fell⟩⟩

end

/-! The net change and the committed state, where every move accounts for its effects. -/

/-- Moves that follow one another, each with its effects accounted for. -/
inductive Passes (machine : RawMachine) : StateValue → List Shift → StateValue → Prop where
  | stop {s} : Passes machine s [] s
  | step {m : Shift} {rest s s'} (starts : m.before = s)
      (accounted : ∀ applied, m.applied = some applied → EffectsAccounted machine s applied)
      (later : Passes machine m.after rest s') : Passes machine s (m::rest) s'

def wing (side : String) (loud : Bool) : StateNodeIR :=
  { key := side, path := side, type := .compound, initial := some "shut"
    states := [
      ("shut",{ key := "shut", path := side ++ ".shut", type := .atomic, exit := if loud then ["creak"] else []
                on := [("push",{ event := "push", target := some "wide" })] }),
      ("wide",{ key := "wide", path := side ++ ".wide", type := .atomic })] }

def gate (loud : Bool) : RawMachine :=
  { id := "gate", type := .parallel, states := [("left",wing "left" loud),("right",wing "right" false)] }

theorem gateLoaded (loud : Bool) : Loaded (injectErrorState (gate loud)) :=
  ⟨⟨gate loud,by cases loud <;> decide,by cases loud <;> decide,if_pos (by cases loud <;> decide)⟩⟩

def gateActor (loud : Bool) : Actor where
  machine := injectErrorState (gate loud)
  actorId := "porter"
  compiledBindings key :=
    if key = bindingKey "left.shut" "push" then some { edge := { event := "push", target := some "wide" } }
    else some { edge := { event := "push", target := some "wide" }, onFailTarget := some "shut" }
  resolveCompensate _ := none

def gateShut : TransactionSnapshot Unit Unit where
  transactionId := "t"
  machineId := "gate"
  actorId := "porter"
  stateValue := .obj [("left",.str "shut"),("right",.str "shut")]
  context := ()
  status := .IDLE
  version := 1
  createdAt := 0
  updatedAt := 0
  compensationStack := []

def sticking : (op : Op Unit Unit) → Reply Unit Unit op
  | .handler key call => if key = bindingKey "right.shut" "push" then (.error "stuck",1) else (.ok { nextContext := call.contextData },1)
  | op => politeUser op

def pushMatches (loud : Bool) : List (MatchedTransition × Unit) :=
  (resolveTransitionsForEvent (injectErrorState (gate loud)).toRawMachine gateShut.stateValue "push").map (·,())

def pushed (loud : Bool) : Act Unit Unit (Working Unit Unit × Option FailedStep) :=
  (gateActor loud).runMatches gateShut "push" 0 (.caller []) (pushMatches loud)
    { currentVersion := 2, workingState := gateShut.stateValue, workingContext := () }

theorem pushedFails (loud : Bool) : ∃ w step, Runs (pushed loud) (transcript sticking (pushed loud)) (.done (w,some step)) := by
  have run := transcriptRuns sticking (pushed loud)
  have ended : ∃ w step, endsIn sticking (pushed loud) = .done (w,some step) := by
    cases loud <;> exact ⟨_,_,rfl⟩
  obtain ⟨w,step,last⟩ := ended
  rw [last] at run
  exact ⟨w,step,run⟩

def pushedMoves (loud : Bool) : List (RegionStep Unit) × Option Shift :=
  (gateActor loud).broadcast gateShut.stateValue ((pushMatches loud).map Prod.fst) ((transcript sticking (pushed loud)).flatMap handled)

theorem pushedSizes (loud : Bool) {steps fall} (made : pushedMoves loud = (steps,some fall)) :
    (queued fall : List (Occurrence Unit)).length = 0 ∧ (netChange steps fall).length = if loud then 1 else 0 := by
  have sizes : (pushedMoves loud).2.elim (0,0) (fun fall => ((queued fall : List (Occurrence Unit)).length,
      (netChange (pushedMoves loud).1 fall).length)) = (0,if loud then 1 else 0) := by
    cases loud <;> decide
  rw [made] at sizes
  exact Prod.mk.inj sizes

end Dfsm
