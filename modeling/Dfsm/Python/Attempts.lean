import Dfsm.Python.Actor

/-! The context object of a transition of the Python SDK: a handler that fails may have changed
it, and the attempts, the commit and the rollback share it. -/
namespace Dfsm.Python

/-- An object that user code returns: the context that it was given, or another one. -/
inductive Object (C : Type) where
  | same
  | other (content : C)

/-- What a call of user code leaves in the object that it was given, and how it ends. -/
abbrev Ran (C α : Type) := Option C × Except Exn α

/-- A step of the stack, with all that user code and the store do while it is unwound. -/
structure PoppedStep (C : Type) where
  popped : Except Exn Unit := .ok ()
  registered : Bool := true
  snapshot : Except Exn Unit := .ok ()
  compensate : Option C → Ran C Unit
  contextBeforeJson : Option String := none
  told : Except Exn Unit := .ok ()

/-- What a step of the machine meets, attempt by attempt: where the breaker refuses, what the
handler does to a context and whether the back-off returns. -/
structure Attempts (C : Type) where
  handlerName : String
  maxAttempts : Int := 1
  refuses : Nat → Option Int := fun _ => none
  handler : Option (Nat → Option C → Ran C (Returned (Object C)))
  backOff : Nat → Except Exn Unit := fun _ => .ok ()
  rollbackTriggered : Bool := false
  stack : List (PoppedStep C) := []
  deserialize : String → Option C
  serialize : C → Except Exn String
  contextJson : String := "{}"

variable {C : Type}

/-- The variables of the loop, the context by what it holds, with the contexts handed out. -/
structure Trying (C : Type) where
  lastErr : Option Exn := none
  userCtx : Option C
  contextJson : String
  attempts : Nat := 0
  received : List (Option C) := []

/-- The variables of the rollback. -/
structure Unwinding (C : Type) where
  userCtx : Option C
  contextJson : String
  handed : List (Option C) := []

/-- Whether an attempt succeeded, the last one failed, or an exception has left the loop. -/
inductive Ending where
  | succeeded | failed | left
  deriving DecidableEq

/-- What is seen of the context: by the attempts, by the store, where the record is stored again,
and by the compensations. -/
structure Seen (C : Type) where
  ending : Ending
  attempts : Nat
  received : List (Option C)
  persisted : Option String := none
  handed : List (Option C) := []

namespace Attempts
variable (a : Attempts C)

def limit : Nat := (max 1 a.maxAttempts).toNat

/-- `_invoke_transition`; without a handler the context goes back. -/
def invokeTransition (k : Nat) (ctx : Option C) : Ran C (TransitionOutput (Object C)) :=
  let given := ctx.map (fun _ => Object.same)
  match a.handler with
  | none => (ctx,.ok { context := given })
  | some handler => ((handler k ctx).1,(handler k ctx).2.map (·.toOutput given))

/-- From a handler that has returned to the end of the `try`. -/
def takeOutput (t : Trying C) (result : TransitionOutput (Object C)) : Except Exn Unit × Trying C :=
  match result.context with
  | none => (.ok (),t)
  | some returned =>
    let userCtx := match returned with
      | .same => t.userCtx
      | .other content => some content
    match userCtx.elim (.ok "{}") a.serialize with
    | .error e => (.error e,{ t with userCtx })
    | .ok contextJson => (.ok (),{ t with userCtx, contextJson })

def tryOnce (k : Nat) (t : Trying C) : Except Exn Unit × Trying C :=
  match a.refuses k with
  | some waitMs => (.error (.circuitOpen a.handlerName waitMs),t)
  | none =>
    let t' := { t with userCtx := (a.invokeTransition k t.userCtx).1, received := t.received ++ [t.userCtx] }
    match (a.invokeTransition k t.userCtx).2 with
    | .error e => (.error e,t')
    | .ok result => a.takeOutput t' result

/-- The attempts that are left. There is no back-off after the last. -/
def retryLoop : Nat → Trying C → Except Exn Unit × Trying C
  | 0, t => (.ok (),t)
  | left+1, t =>
    match a.tryOnce t.attempts t with
    | (.ok _,t') => (.ok (),{ t' with lastErr := none, attempts := t.attempts + 1 })
    | (.error ex,t') =>
      if ex.isException then
        match if left = 0 then .ok () else a.backOff t.attempts with
        | .error e => (.error e,{ t' with attempts := t.attempts + 1 })
        | .ok _ => retryLoop left { t' with lastErr := some ex, attempts := t.attempts + 1 }
      else (.error ex,{ t' with attempts := t.attempts + 1 })

/-- A step that has a handler. -/
def compensateStep (u : Unwinding C) (step : PoppedStep C) : Except Exn Unit × Unwinding C :=
  match step.snapshot with
  | .error e => (.error e,u)
  | .ok _ =>
    let u' := { u with userCtx := (step.compensate u.userCtx).1, handed := u.handed ++ [u.userCtx] }
    match (step.compensate u.userCtx).2 with
    | .error e => (.error e,u')
    | .ok _ => (.ok (),(given step.contextBeforeJson).elim u' (fun contextJson =>
        { u' with userCtx := a.deserialize contextJson, contextJson }))

def unwind : List (PoppedStep C) → Unwinding C → Except Exn Unit × Unwinding C
  | [], u => (.ok (),u)
  | step::stack, u =>
    match step.popped with
    | .error e => (.error e,u)
    | .ok _ =>
      match if step.registered then a.compensateStep u step else (.ok (),u) with
      | (.error e,u) => (.error e,u)
      | (.ok _,u) =>
        match step.told with
        | .error e => (.error e,u)
        | .ok _ => unwind stack u

def rollBack (u : Unwinding C) : Except Exn Unit × Unwinding C := if a.rollbackTriggered then a.unwind a.stack u else (.ok (),u)

/-- From the record that is marked to the one that is stored. -/
def execute : Seen C :=
  match a.retryLoop a.limit { userCtx := a.deserialize a.contextJson, contextJson := a.contextJson } with
  | (.error _,t) => { ending := .left, attempts := t.attempts, received := t.received }
  | (.ok _,t) =>
    match t.lastErr with
    | none => { ending := .succeeded, attempts := t.attempts, received := t.received, persisted := some t.contextJson }
    | some _ =>
      match a.rollBack { userCtx := t.userCtx, contextJson := t.contextJson } with
      | (.error _,u) => { ending := .failed, attempts := t.attempts, received := t.received, handed := u.handed }
      | (.ok _,u) => {
          ending := .failed, attempts := t.attempts, received := t.received, persisted := some u.contextJson, handed := u.handed }

/-- The context as it was before the step. -/
def ctx : Option C := a.deserialize a.contextJson

def fresh : Trying C := { userCtx := a.ctx, contextJson := a.contextJson }

/-- One attempt, as the first and only one. -/
def alone (k : Nat) : Attempts C :=
  { a with maxAttempts := 1, refuses := fun _ => none, handler := a.handler.map (fun handler _ => handler k) }

/-- The failed attempts leave no trace: each attempt receives the context from before the step,
what is persisted is what the last attempt makes of it alone, and the compensations are handed
what they are without any attempt. -/
structure Traceless : Prop where
  received : ∀ ctx ∈ a.execute.received, ctx = a.ctx
  persisted : a.execute.ending = .succeeded → a.execute.persisted = (a.alone (a.execute.attempts - 1)).execute.persisted
  handed : a.execute.ending = .failed → a.execute.handed = (a.rollBack { userCtx := a.ctx, contextJson := a.contextJson }).2.handed

/-! The attempts by themselves, each from the context as it was before the step. -/

/-- What the attempt leaves of it. -/
def leaves (k : Nat) : Option C := (a.tryOnce k a.fresh).2.userCtx

/-- The attempt fails, and is followed by the next. -/
def goesOn (k : Nat) : Prop :=
  ∃ ex, (a.tryOnce k a.fresh).1 = .error ex ∧ ex.isException = true ∧ (k + 1 < a.limit → a.backOff k = .ok ())

def Reached (j : Nat) : Prop := ∀ k < j, a.goesOn k

/-- Whether a compensation handler is called at all. -/
def looks : List (PoppedStep C) → Bool
  | [] => false
  | step::stack => step.popped.toBool && (if step.registered then step.snapshot.toBool else step.told.toBool && looks stack)

/-- A failed attempt leaves the context as it was, where an attempt or a compensation still comes. -/
structure Restores : Prop where
  attempts : ∀ j < a.limit, a.Reached j → a.refuses j = none → ∀ k < j, a.leaves k = a.ctx
  rollback : a.Reached a.limit → a.rollbackTriggered = true → looks a.stack = true → ∀ k < a.limit, a.leaves k = a.ctx

section
variable {a}

theorem takenKeeps {t t' : Trying C} {result : TransitionOutput (Object C)} {e : Exn} (h : a.takeOutput t result = (.error e,t')) :
    t'.contextJson = t.contextJson := by
  unfold takeOutput at h
  split at h
  · cases h
  · dsimp only at h
    split at h
    · cases h
      rfl
    · cases h

theorem triedKeeps {k : Nat} {t t' : Trying C} {e : Exn} (h : a.tryOnce k t = (.error e,t')) : t'.contextJson = t.contextJson := by
  unfold tryOnce at h
  split at h
  · cases h
    rfl
  · dsimp only at h
    split at h
    · cases h
      rfl
    · have kept := takenKeeps h
      exact kept

theorem takenRest (t : Trying C) (result : TransitionOutput (Object C)) (lastErr : Option Exn) (attempts : Nat)
    (received : List (Option C)) : a.takeOutput { t with lastErr, attempts, received } result =
      ((a.takeOutput t result).1,{ (a.takeOutput t result).2 with lastErr, attempts, received }) := by
  unfold takeOutput
  cases result.context with
  | none => rfl
  | some returned =>
    cases returned with
    | same =>
      dsimp only
      cases t.userCtx.elim (.ok "{}") a.serialize <;> rfl
    | other content =>
      dsimp only
      cases (some content).elim (.ok "{}") a.serialize <;> rfl

theorem triedFrom (k : Nat) {t : Trying C} (same : t.userCtx = a.ctx) (json : t.contextJson = a.contextJson) :
    a.tryOnce k t = ((a.tryOnce k a.fresh).1,{ (a.tryOnce k a.fresh).2 with
      lastErr := t.lastErr, attempts := t.attempts, received := t.received ++ if a.refuses k = none then [a.ctx] else [] }) := by
  obtain ⟨lastErr,userCtx,contextJson,attempts,received⟩ := t
  subst same json
  unfold tryOnce
  cases a.refuses k with
  | some waitMs => simp [fresh]
  | none =>
    simp only [fresh,if_true]
    cases (a.invokeTransition k a.ctx).2 with
    | error e => rfl
    | ok result =>
      have one := takenRest (a := a) { userCtx := (a.invokeTransition k a.ctx).1, contextJson := a.contextJson } result
      have first : a.takeOutput { userCtx := (a.invokeTransition k a.ctx).1, contextJson := a.contextJson, received := [] ++ [a.ctx] } result =
        _ := one none 0 [a.ctx]
      dsimp only
      rw [first]
      exact one lastErr attempts (received ++ [a.ctx])

theorem refusedLeaves {k : Nat} {waitMs : Int} (refused : a.refuses k = some waitMs) : a.leaves k = a.ctx := by
  unfold leaves tryOnce
  rw [refused]
  rfl

theorem takenReceived (t : Trying C) (result : TransitionOutput (Object C)) : (a.takeOutput t result).2.received = t.received := by
  unfold takeOutput
  cases result.context with
  | none => rfl
  | some returned =>
    dsimp only
    split <;> rfl

theorem triedReceived (k : Nat) (t : Trying C) :
    (a.tryOnce k t).2.received = t.received ++ if a.refuses k = none then [t.userCtx] else [] := by
  unfold tryOnce
  split
  · rename_i refused
    simp [refused]
  · rename_i admitted
    dsimp only
    split
    · simp [admitted]
    · rw [takenReceived]
      simp [admitted]

theorem receivedGrows (left : Nat) (t : Trying C) :
    t.received <+: (a.retryLoop left t).2.received ∧
      (left ≠ 0 → (a.tryOnce t.attempts t).2.received <+: (a.retryLoop left t).2.received) := by
  induction left generalizing t with
  | zero => exact ⟨List.prefix_rfl,fun other => absurd rfl other⟩
  | succ left ih =>
    have first : t.received <+: (a.tryOnce t.attempts t).2.received := by
      rw [triedReceived]
      exact List.prefix_append _ _
    have rest : (a.tryOnce t.attempts t).2.received <+: (a.retryLoop (left+1) t).2.received := by
      unfold retryLoop
      cases tried : a.tryOnce t.attempts t with
      | mk result t' =>
        cases result with
        | ok u => exact List.prefix_rfl
        | error ex =>
          dsimp only
          split
          · split
            · exact List.prefix_rfl
            · exact (ih { t' with lastErr := some ex, attempts := t.attempts + 1 }).1
          · exact List.prefix_rfl
    exact ⟨first.trans rest,fun _ => rest⟩

theorem attemptReceives (left : Nat) {t : Trying C} (admitted : a.refuses t.attempts = none) :
    t.userCtx ∈ (a.retryLoop (left+1) t).2.received := by
  refine ((receivedGrows (left+1) t).2 (by omega)).subset ?_
  rw [triedReceived,admitted]
  simp

theorem loopOn {left : Nat} {t : Trying C} (counted : t.attempts + (left + 1) = a.limit) {ex : Exn}
    (failed : (a.tryOnce t.attempts t).1 = .error ex) (exception : ex.isException = true)
    (back : t.attempts + 1 < a.limit → a.backOff t.attempts = .ok ()) :
    a.retryLoop (left+1) t =
      a.retryLoop left { (a.tryOnce t.attempts t).2 with lastErr := some ex, attempts := t.attempts + 1 } := by
  rw [retryLoop]
  cases tried : a.tryOnce t.attempts t with
  | mk result t' =>
    rw [tried] at failed
    cases failed
    have waited : (if left = 0 then .ok () else a.backOff t.attempts) = (.ok () : Except Exn Unit) := by
      split
      · rfl
      · exact back (by omega)
    simp only [exception,if_true,waited]

theorem stepOn {left : Nat} {t : Trying C} (counted : t.attempts + (left + 1) = a.limit) (goes : a.goesOn t.attempts)
    (json : t.contextJson = a.contextJson) (start : a.refuses t.attempts = none → t.userCtx = a.ctx) :
    ∃ t' : Trying C, a.retryLoop (left+1) t = a.retryLoop left t' ∧ t'.attempts = t.attempts + 1 ∧ t'.contextJson = a.contextJson ∧
      t'.lastErr.isSome = true ∧ (t.userCtx = a.ctx → t'.userCtx = a.leaves t.attempts) ∧
      (a.refuses t.attempts ≠ none → t'.userCtx = t.userCtx) ∧
      t'.received = t.received ++ if a.refuses t.attempts = none then [a.ctx] else [] := by
  obtain ⟨ex,failed,exception,back⟩ := goes
  cases refused : a.refuses t.attempts with
  | none =>
    have from_ := triedFrom t.attempts (start refused) json
    have fails : (a.tryOnce t.attempts t).1 = .error ex := by rw [from_]; exact failed
    refine ⟨_,loopOn counted fails exception back,rfl,?_,rfl,fun _ => ?_,fun other => absurd rfl other,?_⟩
    · rw [triedKeeps (Prod.ext fails rfl)]
      exact json
    · rw [from_]
      rfl
    · rw [from_]
      simp [refused]
  | some waitMs =>
    have here : a.tryOnce t.attempts t = (.error (.circuitOpen a.handlerName waitMs),t) := by
      unfold tryOnce
      rw [refused]
    refine ⟨_,loopOn counted (congrArg Prod.fst here) rfl back,rfl,?_,rfl,fun same => ?_,fun _ => ?_,?_⟩
    · rw [here]
      exact json
    · rw [here,refusedLeaves refused]
      exact same
    · rw [here]
    · rw [here]
      simp

/-- Where only the context as it was is received, and it is there at the end, no attempt that
went on has changed it. -/
theorem unchanged {left : Nat} {t : Trying C} {j : Nat} (counted : t.attempts + left = a.limit) (bound : t.attempts ≤ j)
    (within : j ≤ a.limit) (reached : a.Reached j) (json : t.contextJson = a.contextJson)
    (received : ∀ ctx ∈ (a.retryLoop left t).2.received, ctx = a.ctx)
    (admitted : j < a.limit → a.refuses j = none) (last : j = a.limit → (a.retryLoop left t).2.userCtx = a.ctx) :
    t.userCtx = a.ctx ∧ ∀ k, t.attempts ≤ k → k < j → a.leaves k = a.ctx := by
  induction left generalizing t with
  | zero =>
    refine ⟨last (by omega),?_⟩
    omega
  | succ left ih =>
    have start (open_ : a.refuses t.attempts = none) : t.userCtx = a.ctx := received _ (attemptReceives left open_)
    rcases Nat.eq_or_lt_of_le bound with here | later
    · refine ⟨start (here ▸ admitted (by omega)),?_⟩
      omega
    · obtain ⟨t',goes,next,json',_,changed,kept,_⟩ := stepOn counted (reached _ later) json start
      rw [goes] at received last
      obtain ⟨same,rest⟩ := ih (by omega) (by omega) json' received last
      have ctx : t.userCtx = a.ctx := by
        by_cases refused : a.refuses t.attempts = none
        · exact start refused
        · rw [← kept refused]
          exact same
      refine ⟨ctx,fun k from_ below => ?_⟩
      rcases Nat.eq_or_lt_of_le from_ with first | more
      · rw [← first,← changed ctx]
        exact same
      · exact rest k (by omega) below

theorem exhausts {left : Nat} {t : Trying C} (counted : t.attempts + left = a.limit) (reached : a.Reached a.limit)
    (json : t.contextJson = a.contextJson) (received : ∀ ctx ∈ (a.retryLoop left t).2.received, ctx = a.ctx)
    (failed : left = 0 → t.lastErr.isSome = true) :
    (a.retryLoop left t).1 = .ok () ∧ (a.retryLoop left t).2.lastErr.isSome = true ∧
      (a.retryLoop left t).2.contextJson = a.contextJson := by
  induction left generalizing t with
  | zero => exact ⟨rfl,failed rfl,json⟩
  | succ left ih =>
    have start (open_ : a.refuses t.attempts = none) : t.userCtx = a.ctx := received _ (attemptReceives left open_)
    obtain ⟨t',goes,next,json',isSome,_⟩ := stepOn counted (reached _ (by omega)) json start
    rw [goes] at received ⊢
    exact ih (by omega) json' received (fun _ => isSome)

theorem sameEnd (k : Nat) {t : Trying C} (start : a.refuses k = none → t.userCtx = a.ctx) (json : t.contextJson = a.contextJson) :
    (a.tryOnce k t).1 = (a.tryOnce k a.fresh).1 ∧ (a.tryOnce k t).2.contextJson = (a.tryOnce k a.fresh).2.contextJson := by
  cases refused : a.refuses k with
  | none =>
    rw [triedFrom k (start refused) json]
    exact ⟨rfl,rfl⟩
  | some waitMs =>
    unfold tryOnce
    rw [refused]
    exact ⟨rfl,json⟩

/-- What the loop comes to where no attempt leaves a trace. -/
structure Steady (result : Except Exn Unit × Trying C) : Prop where
  received : ∀ ctx ∈ result.2.received, ctx = a.ctx
  succeeded : result.1 = .ok () → result.2.lastErr = none → ∃ k, result.2.attempts = k + 1 ∧ a.refuses k = none ∧
    (a.tryOnce k a.fresh).1 = .ok () ∧ result.2.contextJson = (a.tryOnce k a.fresh).2.contextJson
  failed : result.1 = .ok () → result.2.lastErr.isSome = true → result.2.contextJson = a.contextJson ∧
    (result.2.userCtx = a.ctx ∨ (a.rollbackTriggered = true → looks a.stack = false))

theorem steady (restores : a.Restores) {left : Nat} {t : Trying C} (counted : t.attempts + left = a.limit)
    (reached : a.Reached t.attempts) (json : t.contextJson = a.contextJson) (soFar : ∀ ctx ∈ t.received, ctx = a.ctx)
    (failed : left = 0 → t.lastErr.isSome = true) (start : t.userCtx = a.ctx ∨ ∃ k < t.attempts, a.leaves k ≠ a.ctx) :
    Steady (a := a) (a.retryLoop left t) := by
  induction left generalizing t with
  | zero =>
    rw [retryLoop]
    refine ⟨soFar,fun _ none_ => ?_,fun _ _ => ⟨json,?_⟩⟩
    · rw [none_] at failed
      cases failed rfl
    · refine start.imp_right (fun changed triggered => ?_)
      obtain ⟨k,below,other⟩ := changed
      have all : t.attempts = a.limit := by omega
      by_contra looking
      exact other (restores.rollback (all ▸ reached) triggered (by simpa using looking) k (by omega))
  | succ left ih =>
    have opened (open_ : a.refuses t.attempts = none) : t.userCtx = a.ctx := by
      rcases start with same | ⟨k,below,other⟩
      · exact same
      · exact absurd (restores.attempts _ (by omega) reached open_ k below) other
    by_cases goes : a.goesOn t.attempts
    · obtain ⟨t',loop,next,json',isSome,changed,kept,received⟩ := stepOn counted goes json opened
      rw [loop]
      refine ih (by omega) ?_ json' ?_ (fun _ => isSome) ?_
      · rw [next]
        intro k below
        rcases Nat.lt_succ_iff_lt_or_eq.mp below with less | same
        · exact reached k less
        · exact same ▸ goes
      · rw [received]
        intro ctx mem
        rcases List.mem_append.mp mem with mem | mem
        · exact soFar ctx mem
        · split at mem
          · exact List.mem_singleton.mp mem
          · cases mem
      · rcases start with same | ⟨k,below,other⟩
        · by_cases left_ : a.leaves t.attempts = a.ctx
          · exact .inl ((changed same).trans left_)
          · exact .inr ⟨t.attempts,by omega,left_⟩
        · exact .inr ⟨k,by omega,other⟩
    · obtain ⟨ends,text⟩ := sameEnd t.attempts opened json
      have received : ∀ ctx ∈ (a.tryOnce t.attempts t).2.received, ctx = a.ctx := by
        rw [triedReceived]
        intro ctx mem
        rcases List.mem_append.mp mem with mem | mem
        · exact soFar ctx mem
        · split at mem
          · rename_i open_
            rw [List.mem_singleton.mp mem]
            exact opened open_
          · cases mem
      rw [retryLoop]
      cases tried : a.tryOnce t.attempts t with
      | mk result t' =>
        rw [tried] at ends text received
        cases result with
        | ok u =>
          refine ⟨received,fun _ _ => ⟨t.attempts,rfl,?_,ends.symm,text⟩,fun _ isSome => by cases isSome⟩
          cases refused : a.refuses t.attempts with
          | none => rfl
          | some waitMs =>
            unfold tryOnce at tried
            rw [refused] at tried
            cases tried
        | error ex =>
          dsimp only
          split
          · rename_i exception
            split
            · exact ⟨received,(fun ok => by cases ok),(fun ok => by cases ok)⟩
            · rename_i waited
              refine absurd ⟨ex,ends.symm,exception,fun more => ?_⟩ goes
              rw [if_neg (by omega)] at waited
              exact waited
          · exact ⟨received,(fun ok => by cases ok),(fun ok => by cases ok)⟩

/-! The rollback. -/

theorem unwindHands (stack : List (PoppedStep C)) (u : Unwinding C) :
    u.handed <+: (a.unwind stack u).2.handed ∧
      (looks stack = true → u.handed ++ [u.userCtx] <+: (a.unwind stack u).2.handed) ∧
      (looks stack = false → (a.unwind stack u).2.handed = u.handed) := by
  induction stack generalizing u with
  | nil => exact ⟨List.prefix_rfl,(fun looking => by cases looking),fun _ => rfl⟩
  | cons step stack ih =>
    unfold unwind looks
    cases step.popped with
    | error e => exact ⟨List.prefix_rfl,(fun looking => by cases looking),fun _ => rfl⟩
    | ok popped =>
      cases step.registered with
      | false =>
        cases step.told with
        | error e => exact ⟨List.prefix_rfl,(fun looking => by cases looking),fun _ => rfl⟩
        | ok told => exact ih u
      | true =>
        simp only [if_true]
        cases snapshot : step.snapshot with
        | error e =>
          have ends : a.compensateStep u step = (.error e,u) := by
            unfold compensateStep
            rw [snapshot]
          rw [ends]
          exact ⟨List.prefix_rfl,(fun looking => by cases looking),fun _ => rfl⟩
        | ok parsed =>
          have hands : (a.compensateStep u step).2.handed = u.handed ++ [u.userCtx] := by
            unfold compensateStep
            rw [snapshot]
            dsimp only
            split
            · rfl
            · cases given step.contextBeforeJson <;> rfl
          have conclude (result : Unwinding C) (all : u.handed ++ [u.userCtx] <+: result.handed) : u.handed <+: result.handed ∧
              ((Except.ok parsed : Except Exn Unit).toBool = true → u.handed ++ [u.userCtx] <+: result.handed) ∧
              ((Except.ok parsed : Except Exn Unit).toBool = false → result.handed = u.handed) :=
            ⟨(List.prefix_append _ _).trans all,fun _ => all,(fun looking => by cases looking)⟩
          cases stepped : a.compensateStep u step with
          | mk result u' =>
            rw [stepped] at hands
            have own : u.handed ++ [u.userCtx] <+: u'.handed := hands ▸ List.prefix_rfl
            cases result with
            | error e => exact conclude u' own
            | ok done =>
              cases step.told with
              | error e => exact conclude u' own
              | ok told => exact conclude _ (own.trans (ih u').1)

theorem handsSame (userCtx : Option C) (contextJson : String) :
    (a.rollBack { userCtx, contextJson }).2.handed = (a.rollBack { userCtx := a.ctx, contextJson }).2.handed ↔
      (a.rollbackTriggered = true → looks a.stack = true → userCtx = a.ctx) := by
  unfold rollBack
  cases a.rollbackTriggered with
  | false => simp
  | true =>
    obtain ⟨_,looking,notLooking⟩ := unwindHands (a := a) a.stack { userCtx, contextJson }
    obtain ⟨_,looking',notLooking'⟩ := unwindHands (a := a) a.stack { userCtx := a.ctx, contextJson }
    simp only [if_true,forall_const]
    cases sees : looks a.stack with
    | false => simp [notLooking sees,notLooking' sees]
    | true =>
      constructor
      · intro same _
        obtain ⟨rest,first⟩ := looking sees
        obtain ⟨rest',first'⟩ := looking' sees
        rw [← first,← first'] at same
        exact (List.cons.inj same).1
      · intro same
        rw [same rfl]

theorem loopEnds {left : Nat} {t : Trying C} (ok : (a.tryOnce t.attempts t).1 = .ok ()) :
    a.retryLoop (left+1) t = (.ok (),{ (a.tryOnce t.attempts t).2 with lastErr := none, attempts := t.attempts + 1 }) := by
  rw [retryLoop]
  cases tried : a.tryOnce t.attempts t with
  | mk result t' =>
    rw [tried] at ok
    cases ok
    rfl

/-! How the step ends, by how the loop does. -/

theorem executeLeft {e : Exn} {t : Trying C} (loop : a.retryLoop a.limit a.fresh = (.error e,t)) :
    a.execute = { ending := .left, attempts := t.attempts, received := t.received } := by
  unfold fresh ctx at loop
  rw [execute,loop]

theorem executeSucceeded {t : Trying C} (loop : a.retryLoop a.limit a.fresh = (.ok (),t)) (none_ : t.lastErr = none) :
    a.execute = { ending := .succeeded, attempts := t.attempts, received := t.received, persisted := some t.contextJson } := by
  unfold fresh ctx at loop
  rw [execute,loop]
  simp only [none_]

theorem executeFailed {t : Trying C} (loop : a.retryLoop a.limit a.fresh = (.ok (),t)) (some_ : t.lastErr.isSome = true) :
    a.execute.ending = .failed ∧ a.execute.received = t.received ∧
      a.execute.handed = (a.rollBack { userCtx := t.userCtx, contextJson := t.contextJson }).2.handed := by
  unfold fresh ctx at loop
  obtain ⟨e,here⟩ := Option.isSome_iff_exists.mp some_
  rw [execute,loop]
  simp only [here]
  cases a.rollBack { userCtx := t.userCtx, contextJson := t.contextJson } with
  | mk result u => cases result <;> exact ⟨rfl,rfl,rfl⟩

theorem aloneRuns {k : Nat} (admitted : a.refuses k = none) (ok : (a.tryOnce k a.fresh).1 = .ok ()) :
    (a.alone k).execute.persisted = some (a.tryOnce k a.fresh).2.contextJson := by
  have invoked (ctx : Option C) : (a.alone k).invokeTransition 0 ctx = a.invokeTransition k ctx := by
    unfold invokeTransition alone
    cases a.handler <;> rfl
  have tried : (a.alone k).tryOnce 0 a.fresh = a.tryOnce k a.fresh := by
    unfold tryOnce
    rw [admitted]
    simp only [invoked]
    rfl
  have limited : (a.alone k).limit = 1 := rfl
  have ok' : ((a.alone k).tryOnce a.fresh.attempts a.fresh).1 = .ok () := by
    change ((a.alone k).tryOnce 0 a.fresh).1 = _
    rw [tried]
    exact ok
  have once : (a.alone k).retryLoop (0+1) a.fresh = _ := loopEnds ok'
  rw [executeSucceeded (by rw [limited]; exact once) rfl]
  change some ((a.alone k).tryOnce 0 a.fresh).2.contextJson = _
  rw [tried]

end

/-- The failed attempts leave no trace exactly where each of them, if an attempt that is not
refused or a compensation still comes, leaves the context as it was. -/
theorem attemptsTraceless : a.Traceless ↔ a.Restores := by
  have positive : 1 ≤ a.limit := by unfold limit; omega
  constructor
  · intro traceless
    cases loop : a.retryLoop a.limit a.fresh with
    | mk result t =>
      have received : ∀ ctx ∈ (a.retryLoop a.limit a.fresh).2.received, ctx = a.ctx := by
        have seen : a.execute.received = t.received := by
          cases result with
          | error e => rw [executeLeft loop]
          | ok u =>
            cases last : t.lastErr with
            | none => rw [executeSucceeded loop last]
            | some e => exact (executeFailed loop (by rw [last]; rfl)).2.1
        rw [loop,← seen]
        exact traceless.received
      constructor
      · intro j below reached admitted k before
        exact (unchanged (by simp [fresh]) (Nat.zero_le _) below.le reached rfl received (fun _ => admitted)
          (fun all => absurd all (by omega))).2 k (Nat.zero_le _) before
      · intro reached triggered looking k before
        obtain ⟨ok,isSome,json⟩ := exhausts (by simp [fresh]) reached rfl received (by omega)
        have ended : a.retryLoop a.limit a.fresh = (.ok (),(a.retryLoop a.limit a.fresh).2) := Prod.ext ok rfl
        obtain ⟨failed,_,handed⟩ := executeFailed ended isSome
        have same := traceless.handed failed
        rw [handed,json] at same
        have last := (handsSame _ _).mp same triggered looking
        exact (unchanged (by simp [fresh]) (Nat.zero_le _) le_rfl reached rfl received (fun less => absurd less (lt_irrefl _))
          (fun _ => last)).2 k (Nat.zero_le _) before
  · intro restores
    have ran : Steady (a := a) (a.retryLoop a.limit a.fresh) := steady restores (by simp [fresh])
      (fun k below => absurd below (Nat.not_lt_zero k)) rfl (fun ctx mem => by cases mem) (by omega) (.inl rfl)
    cases loop : a.retryLoop a.limit a.fresh with
    | mk result t =>
      rw [loop] at ran
      cases result with
      | error e =>
        have all := executeLeft loop
        constructor
        · rw [all]
          exact ran.received
        · rw [all]
          intro ended
          cases ended
        · rw [all]
          intro ended
          cases ended
      | ok u =>
        cases last : t.lastErr with
        | none =>
          have all := executeSucceeded loop last
          obtain ⟨k,attempts,admitted,ok,json⟩ := ran.succeeded rfl last
          constructor
          · rw [all]
            exact ran.received
          · intro _
            rw [all]
            change some t.contextJson = (a.alone (t.attempts - 1)).execute.persisted
            rw [json,show t.attempts = k + 1 from attempts,Nat.add_sub_cancel,aloneRuns admitted ok]
          · rw [all]
            intro ended
            cases ended
        | some e =>
          have isSome : t.lastErr.isSome = true := by rw [last]; rfl
          obtain ⟨failed,received,handed⟩ := executeFailed loop isSome
          obtain ⟨json,same⟩ := ran.failed rfl isSome
          constructor
          · rw [received]
            exact ran.received
          · rw [failed]
            intro ended
            cases ended
          · intro _
            rw [handed,show t.contextJson = a.contextJson from json]
            refine (handsSame _ _).mpr (fun triggered looking => ?_)
            rcases same with same | blind
            · exact same
            · exact absurd looking (by simp [blind triggered])

/-- A counter: the handler counts, fails at its first attempt and returns nothing at the second. -/
def counter : Attempts Nat where
  handlerName := "count"
  maxAttempts := 2
  handler := some (fun k ctx => (ctx.map (· + 1),if k = 0 then .error (.raised "busy") else .ok .nothing))
  deserialize _ := some 0
  serialize n := .ok (toString n)

theorem attemptsTracelessCounter : ¬ ∀ a : Attempts Nat, a.Traceless := by
  intro claim
  have second : some 1 = some 0 := (claim counter).received (some 1) (by decide)
  cases second

end Attempts
end Dfsm.Python
