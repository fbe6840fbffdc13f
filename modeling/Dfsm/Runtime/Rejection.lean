import Dfsm.Engine.Matches
import Dfsm.Runtime.Actor

/-! Rejected events: a call whose event no active state handles, or whose input a
validator rejects, only reads the record and runs validators before it throws. -/
namespace Dfsm
open Protocol Act

variable {Context Data : Type}

/-- The validator of each binding: the parsed input, or the details of what is wrong. -/
abbrev InputValidator (Data : Type) : Type := String → String → Data → Except (List String) Data

def enforceValidation {α : Type} (target : String) : Except (List String) α → Except DfsmError α
  | .ok data => .ok data
  | .error details => .error (.validation target details)

def DfsmError.IsRejection : DfsmError → Prop
  | .invalidTransition _ _ _ _ => True
  | .validation _ _ => True
  | _ => False

/-- The record is read and validators are run; nothing else is asked. -/
def reading (snapshot : TransactionSnapshot Context Data) (validate : InputValidator Data) :
    Protocol (Reply Context Data) Unit where
  allowed _ op := match op with
    | .getTransaction t => t = snapshot.transactionId
    | .validateInput _ _ _ => True
    | _ => False
  replies op r := match op, r with
    | .getTransaction _, found => found = some snapshot
    | .validateInput statePath event input, r => r = enforceValidation "input" (validate statePath event input)
    | _, _ => True
  after _ _ _ := ()

section
variable (actor : Actor) (snapshot : TransactionSnapshot Context Data) (event : String) (input : Data)
  (validate : InputValidator Data)

def matchedBy : List MatchedTransition :=
  resolveTransitionsForEvent actor.machine.toRawMachine snapshot.stateValue event

/-- However the call goes on, it throws a rejection and has asked for nothing but reads. -/
def Rejects (fields : List (String × Data)) : Prop :=
  (reading snapshot validate).Obeys (fun _ r => ∃ e : DfsmError, r = .error e ∧ e.IsRejection) ()
    (actor.transition snapshot.transactionId event input fields)

/-- No active state declares the event, or the input fails the validator of a match. -/
def Refused : Prop :=
  (∀ q node, isActive actor.machine.states snapshot.stateValue q = true →
    lookupParts actor.machine.states none q = some node → Keyed.get node.on event = none) ∨
  ∃ m ∈ matchedBy actor snapshot event, Keyed.get m.sourceNode.on event = some m.edge ∧
    ∃ details, validate m.sourceNode.path m.edge.event input = .error details

/-- Of the matches in order, the first without a compiled binding comes after one whose
validator rejects. -/
def FirstRejects : List MatchedTransition → Prop
  | [] => False
  | m::rest => (∃ binding, actor.binding m.sourceNode.path m.edge.event = .ok binding) ∧
      match validate m.sourceNode.path m.edge.event input with
      | .error _ => True
      | .ok _ => FirstRejects rest

/-- Every edge of a stored node has a binding, as `initialize` compiles them. -/
def Compiled : Prop :=
  ∀ q node name edge, lookupParts actor.machine.states none q = some node → Keyed.get node.on name = some edge →
    ∃ binding, actor.binding node.path edge.event = .ok binding

variable {actor snapshot event input validate}

theorem bindingMissing {statePath name e} (missing : actor.binding statePath name = .error e) : ¬e.IsRejection := by
  unfold Actor.binding at missing
  split at missing
  · cases missing
    exact id
  · contradiction

theorem validateInputsRejects {β : Type} (matched : List MatchedTransition) {f : List Data → Act Context Data β}
    (asks : ∀ inputs, ¬(reading snapshot validate).Obeys (fun _ r => ∃ e : DfsmError, r = .error e ∧ e.IsRejection) () (f inputs)) :
    (reading snapshot validate).Obeys (fun _ r => ∃ e : DfsmError, r = .error e ∧ e.IsRejection) ()
      (actor.validateInputs input matched >>= f) ↔ FirstRejects actor input validate matched := by
  unfold Actor.validateInputs
  induction matched generalizing f with
  | nil =>
    rw [List.mapM_nil]
    exact iff_of_false (asks []) id
  | cons m rest ih =>
    rw [List.mapM_cons,FirstRejects,bind_assoc]
    cases bound : actor.binding m.sourceNode.path m.edge.event with
    | error e =>
      refine iff_of_false ?_ (by simp)
      rintro ⟨e',same,rejection⟩
      cases same
      exact bindingMissing bound rejection
    | ok binding =>
      have asked (g : Data → Act Context Data β) : (reading snapshot validate).Obeys
          (fun _ r => ∃ e : DfsmError, r = .error e ∧ e.IsRejection) ()
          ((do
            let _ ← orThrow (.ok binding)
            orThrow (← ask (.validateInput m.sourceNode.path m.edge.event input))) >>= g) ↔
          (reading snapshot validate).Obeys (fun _ r => ∃ e : DfsmError, r = .error e ∧ e.IsRejection) ()
            (orThrow (enforceValidation "input" (validate m.sourceNode.path m.edge.event input)) >>= g) :=
        ⟨fun obeys => obeys.2 _ rfl,fun obeys => ⟨trivial,fun _ same => same ▸ obeys⟩⟩
      rw [asked]
      cases validate m.sourceNode.path m.edge.event input with
      | error details => exact iff_of_true ⟨_,rfl,trivial⟩ ⟨⟨binding,rfl⟩,trivial⟩
      | ok data =>
        have below := @ih (fun inputs => f (data::inputs)) (fun inputs => asks (data::inputs))
        simpa [enforceValidation,orThrow,Program.ofExcept] using below

theorem rejectsIff (own : snapshot.machineId = actor.machine.id) (fields : List (String × Data)) :
    Rejects actor snapshot event input validate fields ↔ matchedBy actor snapshot event = [] ∨
      FirstRejects actor input validate (matchedBy actor snapshot event) := by
  have read : Rejects actor snapshot event input validate fields ↔
      (reading snapshot validate).Obeys (fun _ r => ∃ e : DfsmError, r = .error e ∧ e.IsRejection) ()
        (actor.executeTransitionOnSnapshot snapshot event input (.caller fields)) := by
    have found : (if snapshot.machineId = actor.machine.id then
        actor.executeTransitionOnSnapshot snapshot event input (.caller fields)
      else .fail (.transactionNotFound snapshot.transactionId)) =
        actor.executeTransitionOnSnapshot snapshot event input (.caller fields) := if_pos own
    rw [← found]
    exact ⟨fun obeys => obeys.2 (some snapshot) rfl,fun obeys => ⟨rfl,fun r same => by cases same; exact obeys⟩⟩
  rw [read]
  unfold Actor.executeTransitionOnSnapshot
  dsimp only
  split
  · rename_i none_
    exact iff_of_true ⟨_,rfl,trivial⟩ (.inl none_)
  · rename_i some_
    rw [validateInputsRejects]
    · exact ⟨.inr,fun either => either.resolve_left some_⟩
    · intro inputs obeys
      exact And.left obeys

theorem declaredMatch (declared : event ∉ inheritedNames) {node m} (mem : m ∈ selfMatch node event) :
    Keyed.get node.on event = some m.edge := by
  unfold selfMatch at mem
  split at mem
  · rename_i edge found
    rw [List.mem_singleton.mp mem]
    exact found
  · rw [if_neg (by simpa using declared)] at mem
    contradiction

theorem declaredRejects (loaded : Loaded actor.machine) (legal : Legal actor.machine.toRawMachine snapshot.stateValue)
    (compiled : Compiled actor) (declared : event ∉ inheritedNames) (refused : Refused actor snapshot event input validate) :
    matchedBy actor snapshot event = [] ∨ FirstRejects actor input validate (matchedBy actor snapshot event) := by
  have own (m) (mem : m ∈ matchedBy actor snapshot event) : Keyed.get m.sourceNode.on event = some m.edge ∧
      ∃ q, isActive actor.machine.states snapshot.stateValue q = true ∧
        lookupParts actor.machine.states none q = some m.sourceNode := by
    obtain ⟨q,active,stored,self⟩ := matchesActive loaded legal mem
    exact ⟨declaredMatch declared self,q,active,stored⟩
  rcases refused with unhandled | ⟨m,mem,_,details,rejected⟩
  · refine .inl (List.eq_nil_iff_forall_not_mem.mpr (fun m mem => ?_))
    obtain ⟨edge,q,active,stored⟩ := own m mem
    rw [unhandled q m.sourceNode active stored] at edge
    contradiction
  · refine .inr ?_
    have bound (m) (mem : m ∈ matchedBy actor snapshot event) :
        ∃ binding, actor.binding m.sourceNode.path m.edge.event = .ok binding := by
      obtain ⟨edge,q,_,stored⟩ := own m mem
      exact compiled q m.sourceNode event m.edge stored edge
    generalize matchedBy actor snapshot event = matched at mem bound
    induction matched with
    | nil => contradiction
    | cons first rest ih =>
      refine ⟨bound first List.mem_cons_self,?_⟩
      rcases List.mem_cons.mp mem with rfl | later
      · rw [rejected]
        trivial
      · split
        · trivial
        · exact ih later (fun m mem => bound m (List.mem_cons_of_mem _ mem))

end

/-- An actor of the door, and a record that stands idle. -/
def doorActor : Actor where
  machine := injectErrorState door
  actorId := "porter"
  compiledBindings key :=
    if key = bindingKey "idle" "enter" then some { edge := { event := "enter", target := some "work" } }
    else if key = bindingKey "idle" "skip" then some { edge := { event := "skip", target := some "work.left.one" } }
    else none
  resolveCompensate _ := none

def doorRecord : TransactionSnapshot Unit Unit where
  transactionId := "t"
  machineId := "door"
  actorId := "porter"
  stateValue := .str "idle"
  context := ()
  status := .IDLE
  version := 1
  createdAt := 0
  updatedAt := 0
  compensationStack := []

def doorStore : Store Unit Unit where
  transactions := [doorRecord.toTransactionRecord]
  compensations := []
  unique := by simp

theorem idleRefuses {event : String} {validate : InputValidator Unit} 
    (other : ∀ node, Keyed.get door.states "idle" = some node → Keyed.get node.on event = none) :
    Refused doorActor doorRecord event () validate := by
  refine .inl (fun q node active stored => ?_)
  cases q with
  | nil => simp [isActive] at active
  | cons k ks =>
    simp only [doorRecord,isActive,Bool.and_eq_true,decide_eq_true_eq,List.isEmpty_iff] at active
    obtain ⟨⟨rfl,rfl⟩,_⟩ := active
    exact other node stored

end Dfsm
