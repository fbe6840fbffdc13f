import Dfsm.Go.Guarding
import Dfsm.Go.Abandoned
import Dfsm.Go.Store
import Dfsm.Lib.Keyed

/-! The circuit breakers of a Go actor under any interleaving of its transitions: whom they
admit, what they are told, and when they close. -/
namespace Dfsm.Go.Guarding
open Dfsm.Go Program Protocol Act

variable {Context Data : Type}

/-- The breakers by their addresses, those that a method is inside of, and the breaker of
each handler. -/
structure Breakers where
  instances : List CircuitBreakerInstance := []
  inside : List Nat := []
  byHandler : List (String × Nat) := []

/-- The methods of a breaker exclude each other. A call that has looked for a breaker before
another one has stored it stores one of its own. What else a call asks may be answered anyhow. -/
def Guards (s : Breakers) : (op : Op Context Data) → Reply Context Data op → Breakers → Prop
  | .loadBreaker handlerName policy, b, s' => Keyed.get s.byHandler handlerName = some b ∧ s' = s ∨
      b = s.instances.length ∧
        s' = { s with instances := s.instances ++ [{ policy }], byHandler := (handlerName,b)::s.byHandler }
  | .lockBreaker b _, (cb,_), s' => b ∉ s.inside ∧ s.instances[b]? = some cb ∧ s' = { s with inside := b::s.inside }
  | .unlockBreaker b cb, _, s' => s' = { s with instances := s.instances.set b cb, inside := s.inside.filter (· ≠ b) }
  | _, _, s' => s' = s

/-- What a breaker has been through. The half-open periods are counted from one; a call that
has not ended its attempts is known by its number and by the period it was admitted in, none
where the breaker was closed. -/
structure Usage where
  breaker : Option CircuitBreakerInstance := none
  period : Nat := 0
  running : List (Nat × Option Nat) := []
  /-- Successes, in the current period, of calls admitted in it. -/
  probed : Nat := 0

namespace Usage

def entered (u : Usage) (i : Nat) (cb : CircuitBreakerInstance) (now : Int) (call : BreakerCall) : Usage :=
  let left := { u with breaker := some (method cb now call) }
  match call with
  | .beforeExecution =>
    if (cb.beforeExecution now).2.isSome then left
    else match cb.state with
      | .CLOSED => { left with running := (i,none)::u.running }
      | .OPEN => { left with period := u.period + 1, running := (i,some (u.period+1))::u.running, probed := 0 }
      | .HALF_OPEN => { left with running := (i,some u.period)::u.running }
  | .onSuccess => if (i,some u.period) ∈ u.running then { left with probed := u.probed + 1 } else left
  | .onFailure => left

def ends (u : Usage) (i : Nat) : Usage := { u with running := u.running.filter (·.1 ≠ i) }

def after (b : Nat) (u : Usage) : Nat × Event (Reply Context Data) → Usage
  | (i,⟨.lockBreaker b' call,(cb,now)⟩) => if b' = b then u.entered i cb now call else u
  | (i,⟨.timeNow,_⟩) => u.ends i
  | (i,⟨.handler _ _,.error _⟩) => u.ends i
  | _ => u

/-- Calls admitted in the current period that have not ended. -/
def probes (u : Usage) : Nat := u.running.countP (·.2 = some u.period)

end Usage

abbrev entering (b : Nat) (call : BreakerCall) (cb : CircuitBreakerInstance) (now : Int) : Event (Reply Context Data) :=
  ⟨.lockBreaker b call,(cb,now)⟩

/-- What is seen of a run: how far each call has come, and all events. -/
structure Scene (Context Data : Type) where
  shared : Breakers := {}
  phases : Nat → Option Phase := fun _ => none
  log : List (Nat × Event (Reply Context Data)) := []

namespace Scene
variable (s : Scene Context Data)

def usage (b : Nat) : Usage := s.log.foldl (Usage.after b) {}

def policy (b : Nat) : Option CircuitBreakerPolicy := s.shared.instances[b]?.map (·.policy)

/-- How an attempt of an admitted call may end: without an error where the breaker is disabled,
and without a panic, and without an error before the last attempt, where it is enabled. -/
def fairAttempt (p : Phase) (enabled : Bool) : Except Panic (Except String (HandlerOutput Context Data)) → Bool
  | .ok (.ok _) => true
  | .ok (.error _) => enabled && decide (p.attempts ≤ p.results.length + 1)
  | .error _ => !enabled

/-- No more calls are let into a half-open period than have to succeed in it. -/
def room (u : Usage) (cb : CircuitBreakerInstance) : Bool :=
  match cb.state with
  | .CLOSED => true
  | .OPEN => decide (0 < cb.policy.halfOpenSuccessThreshold)
  | .HALF_OPEN => decide ((u.probes : Int) < cb.policy.halfOpenSuccessThreshold)

/-- What a step has to meet: attempts end as they may, a call that an enabled breaker admits has
an attempt to make and finds room, and who succeeds half-open was admitted in that period. -/
def fair (i : Nat) (p : Phase) : Event (Reply Context Data) → Bool
  | ⟨.handler _ _,r⟩ => (p.breaker.bind s.policy).all (fun policy => fairAttempt p policy.enabled r)
  | ⟨.lockBreaker b .beforeExecution,(cb,now)⟩ =>
    !cb.policy.enabled || (cb.beforeExecution now).2.isSome || (decide (1 ≤ p.attempts) && room (s.usage b) cb)
  | ⟨.lockBreaker b .onSuccess,(cb,_)⟩ =>
    !cb.policy.enabled || decide (cb.state ≠ .HALF_OPEN) || decide ((i,some (s.usage b).period) ∈ (s.usage b).running)
  | _ => true

/-- Whether the attempts came to a success; without an attempt there is no error. -/
def succeeded (results : List Bool) : Bool := results.getLast?.getD true

/-- What a breaker is for. -/
structure Protects : Prop where
  /-- A disabled breaker counts nothing. -/
  counts : ∀ (b : Nat) (cb : CircuitBreakerInstance), s.shared.instances[b]? = some cb → cb.policy.enabled = false → cb = { policy := cb.policy }
  /-- It refuses nobody. -/
  refuses : ∀ x ∈ s.log, ∀ b (cb : CircuitBreakerInstance) (now : Int), x.2 = entering b .beforeExecution cb now → cb.policy.enabled = false →
    (cb.beforeExecution now).2 = none
  /-- An enabled one is told of each call that it admits once, of what all its attempts came to. -/
  told : ∀ i p b policy, s.phases i = some p → p.breaker = some b → p.admitted = true → s.policy b = some policy → policy.enabled = true →
    p.reported.length ≤ 1 ∧ (p.ended = true → p.reported = [succeeded p.results])
  probes : ∀ b cb, (s.usage b).breaker = some cb → cb.policy.enabled = true → cb.state = .HALF_OPEN →
    ((s.usage b).probes : Int) ≤ cb.policy.halfOpenSuccessThreshold
  closes : ∀ before i b call (cb : CircuitBreakerInstance) (now : Int) rest, s.log = before ++ (i,entering b call cb now)::rest →
    cb.policy.enabled = true → cb.state = .HALF_OPEN → (method cb now call).state = .CLOSED →
    cb.policy.halfOpenSuccessThreshold ≤ (Scene.usage { s with log := before ++ [(i,entering b call cb now)] } b).probed

end Scene

/-! Runs. -/

section
variable {calls : Nat → Sent Context Data}

/-- A call begins, or one of them goes on. -/
inductive Scene.Step (calls : Nat → Sent Context Data) : Scene Context Data → Scene Context Data → Prop where
  | call {s i} (absent : s.phases i = none) : Step calls s { s with phases := Function.update s.phases i (some {}) }
  | act {s i p op r shared} (here : s.phases i = some p) (allowed : (guarding (calls i)).allowed p op)
      (performed : Guards s.shared op r shared) (met : s.fair i p ⟨op,r⟩ = true) :
      Step calls s {
        shared
        phases := Function.update s.phases i (some (p.after (calls i) ⟨op,r⟩))
        log := s.log ++ [(i,⟨op,r⟩)] }

inductive Scene.Reaches (calls : Nat → Sent Context Data) : Scene Context Data → Prop where
  | start : Reaches calls {}
  | step {s t} (run : Reaches calls s) (step : Scene.Step calls s t) : Reaches calls t

theorem Scene.usageSnoc (s : Scene Context Data) {shared : Breakers} {phases : Nat → Option Phase} {x : Nat × Event (Reply Context Data)}
    (b : Nat) : Scene.usage ⟨shared,phases,s.log ++ [x]⟩ b = (s.usage b).after b x := by
  simp [Scene.usage]

/-- What moves no breaker. -/
def Aside : Op Context Data → Prop
  | .loadBreaker _ _ | .lockBreaker _ _ | .unlockBreaker _ _ => False
  | _ => True

section
variable {c : Sent Context Data} {p : Phase} {s s' : Breakers} {op : Op Context Data} {r : Reply Context Data op}

theorem asideGuards (aside : Aside op) (performed : Guards s op r s') : s' = s := by
  cases op <;> first | exact performed | exact aside.elim

theorem asideInside (aside : Aside op) : (p.after c ⟨op,r⟩).inside = p.inside := by
  cases op with
  | getTransaction id => rcases r with e | (_ | record) <;> rfl
  | handler handlerName request => rcases r with panic | (error | output) <;> rfl
  | loadBreaker => cases aside
  | lockBreaker => cases aside
  | unlockBreaker => cases aside
  | _ => rfl

theorem asideBreaker (aside : Aside op) (i b : Nat) (u : Usage) : (u.after b (i,⟨op,r⟩)).breaker = u.breaker := by
  cases op with
  | handler handlerName request => rcases r with panic | (error | output) <;> rfl
  | loadBreaker => cases aside
  | lockBreaker => cases aside
  | unlockBreaker => cases aside
  | _ => rfl

end

theorem methodPolicy (cb : CircuitBreakerInstance) (now : Int) (call : BreakerCall) : (method cb now call).policy = cb.policy := by
  cases call with
  | beforeExecution =>
    simp only [method,CircuitBreakerInstance.beforeExecution]
    split
    · split <;> rfl
    · rfl
  | onSuccess =>
    simp only [method,CircuitBreakerInstance.onSuccess]
    split
    · split <;> rfl
    · rfl
    · rfl
  | onFailure =>
    simp only [method,CircuitBreakerInstance.onFailure]
    split
    · rfl
    · split <;> rfl
    · rfl

theorem enteredBreaker (u : Usage) (i : Nat) (cb : CircuitBreakerInstance) (now : Int) (call : BreakerCall) :
    (u.entered i cb now call).breaker = some (method cb now call) := by
  cases call with
  | beforeExecution =>
    unfold Usage.entered
    dsimp only
    split
    · rfl
    · split <;> rfl
  | onSuccess =>
    unfold Usage.entered
    dsimp only
    split <;> rfl
  | onFailure => rfl

/-- A breaker is in one method at a time, and the next method finds what the last one has left. -/
structure Scene.Coherent (s : Scene Context Data) : Prop where
  inside : ∀ i p b cb, s.phases i = some p → p.inside = some (b,cb) → b ∈ s.shared.inside ∧ (s.usage b).breaker = some cb
  alone : ∀ i j p q b x y, s.phases i = some p → s.phases j = some q → p.inside = some (b,x) → q.inside = some (b,y) → i = j
  outside : ∀ (b : Nat) cb, s.shared.instances[b]? = some cb → b ∉ s.shared.inside →
    (s.usage b).breaker = some cb ∨ (s.usage b).breaker = none ∧ cb = { policy := cb.policy }
  policy : ∀ b u, (s.usage b).breaker = some u → s.policy b = some u.policy

theorem updateInside {s : Scene Context Data} {i : Nat} {p q : Phase} (here : s.phases i = some p) (same : q.inside = p.inside)
    (j : Nat) (r : Phase) (there : Function.update s.phases i (some q) j = some r) : ∃ r', s.phases j = some r' ∧ r.inside = r'.inside := by
  by_cases own : j = i
  · subst own
    rw [Function.update_self] at there
    cases there
    exact ⟨p,here,same⟩
  · rw [Function.update_of_ne own] at there
    exact ⟨r,there,rfl⟩

theorem coherentStays {s t : Scene Context Data} {i : Nat} {p q : Phase} (coherent : s.Coherent) (here : s.phases i = some p)
    (same : q.inside = p.inside) (phases : t.phases = Function.update s.phases i (some q)) (inside : t.shared.inside = s.shared.inside)
    (breaker : ∀ b, (t.usage b).breaker = (s.usage b).breaker) (policy : ∀ b x, s.policy b = some x → t.policy b = some x)
    (fresh : ∀ (b : Nat) cb, t.shared.instances[b]? = some cb →
      s.shared.instances[b]? = some cb ∨ s.policy b = none ∧ cb = { policy := cb.policy }) : t.Coherent := by
  refine ⟨fun j q b cb there within => ?_,fun j k q q' b x y there there' within within' => ?_,fun b cb found out => ?_,fun b u left => ?_⟩
  · rw [phases] at there
    obtain ⟨before,earlier,same⟩ := updateInside here same j q there
    rw [inside,breaker]
    exact coherent.inside j before b cb earlier (same ▸ within)
  · rw [phases] at there there'
    obtain ⟨before,earlier,same'⟩ := updateInside here same j q there
    obtain ⟨before',earlier',same''⟩ := updateInside here same k q' there'
    exact coherent.alone j k before before' b x y earlier earlier' (same' ▸ within) (same'' ▸ within')
  · rw [breaker]
    rw [inside] at out
    rcases fresh b cb found with old | ⟨absent,new⟩
    · exact coherent.outside b cb old out
    · refine .inr ⟨?_,new⟩
      cases left : (s.usage b).breaker with
      | none => rfl
      | some u =>
        rw [coherent.policy b u left] at absent
        cases absent
  · rw [breaker] at left
    exact policy b _ (coherent.policy b u left)

theorem coherentLock {s : Scene Context Data} {i b : Nat} {q : Phase} {call : BreakerCall} {cb : CircuitBreakerInstance} {now : Int}
    (coherent : s.Coherent) (same : q.inside = some (b,method cb now call)) (free : b ∉ s.shared.inside)
    (found : s.shared.instances[b]? = some cb) :
    @Scene.Coherent Context Data {
      shared := { s.shared with inside := b::s.shared.inside }
      phases := Function.update s.phases i (some q)
      log := s.log ++ [(i,entering b call cb now)] } := by
  have other (j q' b' x) (there : Function.update s.phases i (some q) j = some q') (within : q'.inside = some (b',x)) :
      j = i ∧ b' = b ∧ x = method cb now call ∨ j ≠ i ∧ b' ≠ b ∧ s.phases j = some q' := by
    by_cases own : j = i
    · subst own
      rw [Function.update_self] at there
      cases there
      cases same.symm.trans within
      exact .inl ⟨rfl,rfl,rfl⟩
    · rw [Function.update_of_ne own] at there
      refine .inr ⟨own,fun equal => ?_,there⟩
      subst equal
      exact free (coherent.inside j q' _ x there within).1
  have others (b') (differs : b' ≠ b) : @Scene.usage Context Data ⟨{ s.shared with inside := b::s.shared.inside },
      Function.update s.phases i (some q),s.log ++ [(i,entering b call cb now)]⟩ b' = s.usage b' := by
    rw [Scene.usageSnoc]
    exact if_neg (Ne.symm differs)
  have own : (@Scene.usage Context Data ⟨{ s.shared with inside := b::s.shared.inside },
      Function.update s.phases i (some q),s.log ++ [(i,entering b call cb now)]⟩ b).breaker = some (method cb now call) := by
    rw [Scene.usageSnoc]
    simp only [Usage.after,if_true]
    exact enteredBreaker _ _ _ _ _
  refine ⟨fun j q' b' x there within => ?_,fun j k q' q'' b' x y there there' within within' => ?_,fun b' x here out => ?_,fun b' u left => ?_⟩
  · rcases other j q' b' x there within with ⟨rfl,rfl,rfl⟩ | ⟨_,differs,earlier⟩
    · exact ⟨List.mem_cons_self,own⟩
    · rw [others b' differs]
      have old := coherent.inside j q' b' x earlier within
      exact ⟨List.mem_cons_of_mem _ old.1,old.2⟩
  · rcases other j q' b' x there within with ⟨rfl,rfl,_⟩ | ⟨_,differs,earlier⟩
    · rcases other k q'' _ y there' within' with ⟨rfl,_⟩ | ⟨_,differs,_⟩
      · rfl
      · exact absurd rfl differs
    · rcases other k q'' b' y there' within' with ⟨_,equal,_⟩ | ⟨_,_,earlier'⟩
      · exact absurd equal differs
      · exact coherent.alone j k q' q'' b' x y earlier earlier' within within'
  · have differs : b' ≠ b := fun equal => out (by rw [equal]; exact List.mem_cons_self)
    rw [others b' differs]
    exact coherent.outside b' x here (fun mem => out (List.mem_cons_of_mem _ mem))
  · by_cases equal : b' = b
    · subst equal
      cases Option.some.inj (own.symm.trans left)
      simp [Scene.policy,found,methodPolicy]
    · rw [others b' equal] at left
      exact coherent.policy b' u left

theorem coherentUnlock {s : Scene Context Data} {i b : Nat} {p q : Phase} {cb : CircuitBreakerInstance}
    (coherent : s.Coherent) (here : s.phases i = some p) (inside : p.inside = some (b,cb)) (leaves : q.inside = none) :
    @Scene.Coherent Context Data {
      shared := { s.shared with instances := s.shared.instances.set b cb, inside := s.shared.inside.filter (· ≠ b) }
      phases := Function.update s.phases i (some q)
      log := s.log ++ [(i,⟨.unlockBreaker b cb,()⟩)] } := by
  have left := (coherent.inside i p b cb here inside).2
  have other (j q' b' x) (there : Function.update s.phases i (some q) j = some q') (within : q'.inside = some (b',x)) :
      j ≠ i ∧ b' ≠ b ∧ s.phases j = some q' := by
    by_cases own : j = i
    · subst own
      rw [Function.update_self] at there
      cases there
      cases leaves.symm.trans within
    · rw [Function.update_of_ne own] at there
      refine ⟨own,fun equal => ?_,there⟩
      subst equal
      exact own (coherent.alone j i q' p _ x cb there here within inside)
  have usage (b') : @Scene.usage Context Data ⟨{ s.shared with
      instances := s.shared.instances.set b cb, inside := s.shared.inside.filter (· ≠ b) },
      Function.update s.phases i (some q),s.log ++ [(i,⟨.unlockBreaker b cb,()⟩)]⟩ b' = s.usage b' := Scene.usageSnoc s b'
  refine ⟨fun j q' b' x there within => ?_,fun j k q' q'' b' x y there there' within within' => ?_,fun b' x found out => ?_,fun b' u last => ?_⟩
  · obtain ⟨_,differs,earlier⟩ := other j q' b' x there within
    have old := coherent.inside j q' b' x earlier within
    rw [usage]
    exact ⟨List.mem_filter.mpr ⟨old.1,by simpa using differs⟩,old.2⟩
  · exact coherent.alone j k q' q'' b' x y (other j q' b' x there within).2.2 (other k q'' b' y there' within').2.2 within within'
  · rw [usage]
    by_cases equal : b' = b
    · subst equal
      simp only [List.getElem?_set,if_true] at found
      split at found
      · cases found
        exact .inl left
      · cases found
    · simp only [List.getElem?_set,Ne.symm equal,if_false] at found
      exact coherent.outside b' x found (fun mem => out (List.mem_filter.mpr ⟨mem,by simpa using equal⟩))
  · rw [usage] at last
    have policy := coherent.policy b' u last
    by_cases equal : b' = b
    · subst equal
      cases Option.some.inj (left.symm.trans last)
      obtain ⟨old,found,_⟩ := Option.map_eq_some_iff.mp policy
      have bound := (List.getElem?_eq_some_iff.mp found).1
      simp [Scene.policy,bound]
    · simpa [Scene.policy,List.getElem?_set,Ne.symm equal] using policy

theorem coherentStep {s t : Scene Context Data} (coherent : s.Coherent) (step : Scene.Step calls s t) : t.Coherent := by
  cases step with
  | @call i absent =>
    have fresh (j q) (there : Function.update s.phases i (some {}) j = some q) : s.phases j = some q ∨ q = {} := by
      by_cases own : j = i
      · subst own
        rw [Function.update_self] at there
        exact .inr (Option.some.inj there).symm
      · rw [Function.update_of_ne own] at there
        exact .inl there
    have within (j q b cb) (there : Function.update s.phases i (some {}) j = some q) (inside : q.inside = some (b,cb)) :
        s.phases j = some q := by
      rcases fresh j q there with old | new
      · exact old
      · subst new
        cases inside
    refine ⟨fun j q b cb there inside => coherent.inside j q b cb (within j q b cb there inside) inside,
      fun j k q q' b x y there there' inside inside' => ?_,coherent.outside,coherent.policy⟩
    exact coherent.alone j k q q' b x y (within j q b x there inside) (within k q' b y there' inside') inside inside'
  | @act i p op r shared here allowed performed met =>
    by_cases aside : Aside op
    · refine coherentStays coherent here (asideInside aside) rfl (by rw [asideGuards aside performed]) (fun b => ?_) ?_ ?_
      · rw [Scene.usageSnoc]
        exact asideBreaker aside i b _
      · rw [asideGuards aside performed]
        exact fun _ _ kept => kept
      · rw [asideGuards aside performed]
        exact fun _ _ kept => .inl kept
    · cases op with
      | loadBreaker handlerName policy =>
        have same (b : Nat) : (p.after (calls i) ⟨.loadBreaker handlerName policy,b⟩).inside = p.inside := rfl
        rcases performed with ⟨_,rfl⟩ | ⟨rfl,rfl⟩
        · exact coherentStays coherent here (same _) rfl rfl (fun b => by rw [Scene.usageSnoc]; rfl) (fun _ _ kept => kept) (fun _ _ kept => .inl kept)
        · refine coherentStays coherent here (same _) rfl rfl (fun b => by rw [Scene.usageSnoc]; rfl) (fun b x kept => ?_) (fun b cb found => ?_)
          · obtain ⟨cb,found,_⟩ := Option.map_eq_some_iff.mp kept
            have inside := (List.getElem?_eq_some_iff.mp found).1
            rw [← kept]
            simp [Scene.policy,List.getElem?_append_left inside]
          · rcases Nat.lt_or_ge b s.shared.instances.length with inside | outside
            · rw [List.getElem?_append_left inside] at found
              exact .inl found
            · rw [List.getElem?_append_right outside] at found
              refine .inr ⟨by simp [Scene.policy,outside],?_⟩
              rw [List.mem_singleton.mp (List.mem_of_getElem? found)]
      | lockBreaker b call =>
        obtain ⟨cb,now⟩ := r
        obtain ⟨free,found,rfl⟩ := performed
        refine coherentLock coherent ?_ free found
        cases call <;> rfl
      | unlockBreaker b cb =>
        cases performed
        exact coherentUnlock coherent here allowed rfl
      | _ => exact absurd trivial aside

theorem reachesCoherent {s : Scene Context Data} (run : Scene.Reaches calls s) : s.Coherent := by
  induction run with
  | start => exact ⟨by simp,by simp,by simp,fun _ _ left => by cases left⟩
  | step _ step ih => exact coherentStep ih step

theorem policyStays {s t : Scene Context Data} (coherent : s.Coherent) (step : Scene.Step calls s t) {b : Nat} {policy : CircuitBreakerPolicy}
    (known : s.policy b = some policy) : t.policy b = some policy := by
  cases step with
  | call absent => exact known
  | @act i p op r shared here allowed performed met =>
    by_cases aside : Aside op
    · rw [Scene.policy,asideGuards aside performed]
      exact known
    · cases op with
      | loadBreaker handlerName made =>
        rcases performed with ⟨_,rfl⟩ | ⟨_,rfl⟩
        · exact known
        · obtain ⟨cb,found,_⟩ := Option.map_eq_some_iff.mp known
          have inside := (List.getElem?_eq_some_iff.mp found).1
          rw [← known]
          simp [Scene.policy,List.getElem?_append_left inside]
      | lockBreaker b' call =>
        obtain ⟨cb,now⟩ := r
        obtain ⟨_,_,rfl⟩ := performed
        exact known
      | unlockBreaker b' cb =>
        cases performed
        have left := coherent.policy b' cb (coherent.inside i p b' cb here allowed).2
        by_cases equal : b = b'
        · subst equal
          obtain ⟨old,found,_⟩ := Option.map_eq_some_iff.mp known
          have bound := (List.getElem?_eq_some_iff.mp found).1
          rw [← known,left]
          simp [Scene.policy,bound]
        · rw [← known]
          simp [Scene.policy,List.getElem?_set,Ne.symm equal]
      | _ => exact absurd trivial aside

/-- What is so far of an admitted call whose attempts end as they may, under an enabled breaker. -/
structure Once (p : Phase) : Prop where
  attempts : 1 ≤ p.attempts
  results : p.results = [] ∨ p.results = [true] ∨ p.results = [false] ∧ p.attempts ≤ 1
  reported : p.reported = [] ∨ p.reported = p.results
  ended : p.ended = true → p.reported = p.results ∧ p.results ≠ []

/-- And under any. -/
structure Sound (policy : Nat → Option CircuitBreakerPolicy) (p : Phase) : Prop where
  admitted : ∀ b, p.breaker = some b → p.admitted = true →
    ∃ x, policy b = some x ∧ (x.enabled = true → Once p) ∧ (x.enabled = false → false ∉ p.results)
  ended : p.ended = true → p.admitted = true

section
variable {policy : Nat → Option CircuitBreakerPolicy} {p : Phase} {c : Sent Context Data} {s : Scene Context Data} {i : Nat}

theorem onceTried (once : Once p) (waits : true ∉ p.results) (more : (p.results.length : Int) < p.attempts) : p.results = [] := by
  rcases once.results with none_ | well | ⟨failed,last⟩
  · exact none_
  · exact absurd (by simp [well]) waits
  · rw [failed] at more
    exact absurd more (by simp; omega)

theorem handlerSound {name : String} {request : TransitionRequest Context Data} {r : Reply Context Data (.handler name request)}
    (sound : Sound s.policy p) (allowed : (guarding c).allowed p (.handler name request)) (met : s.fair i p ⟨.handler name request,r⟩ = true) :
    Sound s.policy (p.replied r) := by
  have fair (b) (loaded : p.breaker = some b) (admitted : p.admitted = true) : ∃ x, s.policy b = some x ∧
      Scene.fairAttempt p x.enabled r = true ∧ p.results = p.reported ∧ (x.enabled = true → Once p ∧ p.results = []) ∧
      (x.enabled = false → false ∉ p.results) := by
    obtain ⟨x,known,on,off⟩ := sound.admitted b loaded admitted
    obtain ⟨_,same,waits,more⟩ := allowed (by rw [loaded]; rfl)
    simp only [Scene.fair,loaded,Option.bind_some,known,Option.all_some] at met
    exact ⟨x,known,met,same,fun enabled => ⟨on enabled,onceTried (on enabled) waits more⟩,off⟩
  rcases r with panic | (error | output)
  · refine ⟨fun b loaded admitted => ?_,fun ended => ended⟩
    obtain ⟨x,known,met,_,_,off⟩ := fair b loaded admitted
    refine ⟨x,known,fun enabled => ?_,off⟩
    simp [Scene.fairAttempt,enabled] at met
  · refine ⟨fun b loaded admitted => ?_,sound.ended⟩
    obtain ⟨x,known,met,same,on,_⟩ := fair b loaded admitted
    refine ⟨x,known,fun enabled => ?_,fun disabled => by simp [Scene.fairAttempt,disabled] at met⟩
    obtain ⟨once,fresh⟩ := on enabled
    have last : p.attempts ≤ 1 := by simpa [Scene.fairAttempt,enabled,fresh] using met
    refine ⟨once.attempts,.inr (.inr ⟨by simp [Phase.replied,fresh],last⟩),.inl (same.symm.trans fresh),fun ended => ?_⟩
    exact absurd fresh (once.ended ended).2
  · refine ⟨fun b loaded admitted => ?_,sound.ended⟩
    obtain ⟨x,known,_,same,on,off⟩ := fair b loaded admitted
    refine ⟨x,known,fun enabled => ?_,fun disabled => by simpa [Phase.replied] using off disabled⟩
    obtain ⟨once,fresh⟩ := on enabled
    refine ⟨once.attempts,.inr (.inl (by simp [Phase.replied,fresh])),.inl (same.symm.trans fresh),fun ended => ?_⟩
    exact absurd fresh (once.ended ended).2

theorem lockSound {b : Nat} {call : BreakerCall} {cb : CircuitBreakerInstance} {now : Int} (sound : Sound s.policy p)
    (allowed : (guarding c).allowed p (.lockBreaker b call)) (found : s.policy b = some cb.policy)
    (met : s.fair i p (entering b call cb now : Event (Reply Context Data)) = true) : Sound s.policy (p.entered b cb now call) := by
  obtain ⟨_,loaded,waits⟩ := allowed
  cases call with
  | beforeExecution =>
    obtain ⟨out,fresh,untold⟩ := waits
    have early : p.ended = false := by
      cases ended : p.ended with
      | false => rfl
      | true => exact absurd ((sound.ended ended).symm.trans out) (by decide)
    refine ⟨fun b' loaded' admitted => ?_,fun ended => absurd (ended.symm.trans early) (by decide)⟩
    cases Option.some.inj (loaded.symm.trans loaded')
    refine ⟨cb.policy,found,fun enabled => ⟨?_,.inl fresh,.inl untold,fun ended => absurd (ended.symm.trans early) (by decide)⟩,fun _ => ?_⟩
    · have lets : (cb.beforeExecution now).2.isSome = false := by
        simpa [Phase.entered] using admitted
      simp only [Scene.fair,enabled,lets,Bool.not_true,Bool.false_or,Bool.and_eq_true,decide_eq_true_eq] at met
      exact met.1
    · simp [Phase.entered,fresh]
  | onSuccess =>
    obtain ⟨_,all⟩ := waits
    refine ⟨fun b' loaded' admitted => ?_,sound.ended⟩
    obtain ⟨x,known,on,off⟩ := sound.admitted b' loaded' admitted
    refine ⟨x,known,fun enabled => ?_,off⟩
    have once := on enabled
    exact ⟨once.attempts,once.results,.inr all.symm,fun ended => ⟨all.symm,(once.ended ended).2⟩⟩
  | onFailure =>
    obtain ⟨_,all⟩ := waits
    refine ⟨fun b' loaded' admitted => ?_,sound.ended⟩
    obtain ⟨x,known,on,off⟩ := sound.admitted b' loaded' admitted
    refine ⟨x,known,fun enabled => ?_,off⟩
    have once := on enabled
    exact ⟨once.attempts,once.results,.inr all.symm,fun ended => ⟨all.symm,(once.ended ended).2⟩⟩

theorem endedSound (sound : Sound s.policy p) (allowed : (guarding c).allowed p .timeNow) : Sound s.policy { p with ended := p.admitted } := by
  refine ⟨fun b loaded admitted => ?_,fun ended => ended⟩
  obtain ⟨x,known,on,off⟩ := sound.admitted b loaded admitted
  obtain ⟨same,made⟩ := allowed (by rw [loaded]; rfl) admitted
  refine ⟨x,known,fun enabled => ?_,off⟩
  have once := on enabled
  refine ⟨once.attempts,once.results,once.reported,fun _ => ⟨same.symm,fun none_ => ?_⟩⟩
  have attempts := once.attempts
  rw [none_] at made
  rcases made with last | few
  · cases last
  · simp at few
    omega

theorem ownSound {op : Op Context Data} {r : Reply Context Data op} (sound : Sound s.policy p) (allowed : (guarding c).allowed p op)
    (performed : Guards s.shared op r shared) (met : s.fair i p ⟨op,r⟩ = true) : Sound s.policy (p.after c ⟨op,r⟩) := by
  have outside {q : Phase} (no : q.admitted = false) (same : q.ended = p.ended) (before : p.admitted = false) : Sound s.policy q := by
    refine ⟨fun _ _ admitted => absurd (no.symm.trans admitted) (by decide),fun ended => ?_⟩
    exact absurd (before.symm.trans (sound.ended (same ▸ ended))) (by decide)
  cases op with
  | getTransaction id =>
    rcases r with e | (_ | record)
    · exact sound
    · exact sound
    · exact outside allowed.1 rfl allowed.1
  | createTransaction record => exact outside allowed.1 rfl allowed.1
  | loadBreaker handlerName policy => exact outside allowed.2.2 rfl allowed.2.2
  | lockBreaker b call =>
    obtain ⟨cb,now⟩ := r
    exact lockSound sound allowed (by simp [Scene.policy,performed.2.1]) met
  | unlockBreaker b cb => exact ⟨fun b' loaded admitted => by
      obtain ⟨x,known,on,off⟩ := sound.admitted b' loaded admitted
      exact ⟨x,known,fun enabled => ⟨(on enabled).attempts,(on enabled).results,(on enabled).reported,(on enabled).ended⟩,off⟩,sound.ended⟩
  | handler name request => exact handlerSound sound allowed met
  | timeNow => exact endedSound sound allowed
  | _ => exact sound

end

theorem reachesSound {s : Scene Context Data} (run : Scene.Reaches calls s) : ∀ i p, s.phases i = some p → Sound s.policy p := by
  induction run with
  | start => exact fun _ _ here => by cases here
  | @step s t before step ih =>
    have later {p : Phase} (sound : Sound s.policy p) : Sound t.policy p := by
      refine ⟨fun b loaded admitted => ?_,sound.ended⟩
      obtain ⟨x,known,on,off⟩ := sound.admitted b loaded admitted
      exact ⟨x,policyStays (reachesCoherent before) step known,on,off⟩
    intro j q there
    cases step with
    | @call i absent =>
      dsimp only at there
      by_cases own : j = i
      · subst own
        rw [Function.update_self] at there
        cases there
        exact ⟨fun _ loaded => (by cases loaded),fun ended => (by cases ended)⟩
      · rw [Function.update_of_ne own] at there
        exact later (ih j q there)
    | @act i p op r shared here allowed performed met =>
      dsimp only at there
      by_cases own : j = i
      · subst own
        rw [Function.update_self] at there
        cases there
        exact later (ownSound (ih j p here) allowed performed met)
      · rw [Function.update_of_ne own] at there
        exact later (ih j q there)

/-- A breaker that nothing has counted for. -/
def Fresh (cb : CircuitBreakerInstance) : Prop := cb.policy.enabled = false → cb = { policy := cb.policy }

theorem methodFresh {cb : CircuitBreakerInstance} {now : Int} {call : BreakerCall} (fresh : Fresh cb)
    (well : cb.policy.enabled = false → call ≠ .onFailure) : Fresh (method cb now call) := by
  intro disabled
  rw [methodPolicy] at disabled ⊢
  have idle := fresh disabled
  cases call with
  | beforeExecution =>
    rw [idle]
    rfl
  | onSuccess =>
    rw [idle]
    rfl
  | onFailure => exact absurd rfl (well disabled)

structure Scene.Idle (s : Scene Context Data) : Prop where
  instances : ∀ (b : Nat) cb, s.shared.instances[b]? = some cb → Fresh cb
  breaker : ∀ b cb, (s.usage b).breaker = some cb → Fresh cb
  refuses : ∀ x ∈ s.log, ∀ b (cb : CircuitBreakerInstance) (now : Int), x.2 = entering b .beforeExecution cb now → cb.policy.enabled = false →
    (cb.beforeExecution now).2 = none

theorem idleStep {s t : Scene Context Data} (coherent : s.Coherent) (sound : ∀ i p, s.phases i = some p → Sound s.policy p) (idle : s.Idle)
    (step : Scene.Step calls s t) : t.Idle := by
  cases step with
  | call absent => exact ⟨idle.instances,idle.breaker,idle.refuses⟩
  | @act i p op r shared here allowed performed met =>
    have quiet (no : ∀ b call, op ≠ .lockBreaker b call) : ∀ x ∈ s.log ++ [(i,(⟨op,r⟩ : Event (Reply Context Data)))],
        ∀ b (cb : CircuitBreakerInstance) (now : Int), x.2 = entering b .beforeExecution cb now → cb.policy.enabled = false →
          (cb.beforeExecution now).2 = none := by
      intro x mem b cb now same
      rcases List.mem_append.mp mem with old | new
      · exact idle.refuses x old b cb now same
      · rw [List.mem_singleton.mp new] at same
        cases same
        exact absurd rfl (no b .beforeExecution)
    by_cases aside : Aside op
    · refine ⟨?_,fun b cb left => ?_,quiet (fun _ _ same => by subst same; exact aside)⟩
      · rw [asideGuards aside performed]
        exact idle.instances
      · rw [Scene.usageSnoc,asideBreaker aside] at left
        exact idle.breaker b cb left
    · cases op with
      | loadBreaker handlerName policy =>
        refine ⟨fun b cb found => ?_,fun b cb left => ?_,quiet (by simp)⟩
        · rcases performed with ⟨_,rfl⟩ | ⟨_,rfl⟩
          · exact idle.instances b cb found
          · rcases Nat.lt_or_ge b s.shared.instances.length with inside | outside
            · rw [List.getElem?_append_left inside] at found
              exact idle.instances b cb found
            · rw [List.getElem?_append_right outside] at found
              rw [List.mem_singleton.mp (List.mem_of_getElem? found)]
              exact fun _ => rfl
        · rw [Scene.usageSnoc] at left
          exact idle.breaker b cb left
      | lockBreaker b call =>
        obtain ⟨cb,now⟩ := r
        obtain ⟨_,found,rfl⟩ := performed
        have fresh := idle.instances b cb found
        refine ⟨idle.instances,fun b' cb' left => ?_,fun x mem b' cb' now' same disabled => ?_⟩
        · rw [Scene.usageSnoc] at left
          by_cases equal : b = b'
          · subst equal
            simp only [Usage.after,if_true,enteredBreaker] at left
            cases left
            refine methodFresh fresh (fun disabled failed => ?_)
            subst failed
            obtain ⟨_,loaded,admitted,all⟩ := allowed
            obtain ⟨x,known,_,off⟩ := (sound i p here).admitted b loaded admitted
            have own : x = cb.policy := by
              simpa [Scene.policy,found] using known.symm
            subst own
            exact absurd (by simp [all]) (off disabled)
          · simp only [Usage.after,if_neg equal] at left
            exact idle.breaker b' cb' left
        · rcases List.mem_append.mp mem with old | new
          · exact idle.refuses x old b' cb' now' same disabled
          · rw [List.mem_singleton.mp new] at same
            cases same
            rw [fresh disabled]
            rfl
      | unlockBreaker b cb =>
        cases performed
        refine ⟨fun b' cb' found => ?_,fun b' cb' left => ?_,quiet (by simp)⟩
        · by_cases equal : b' = b
          · subst equal
            simp only [List.getElem?_set,if_true] at found
            split at found
            · cases found
              exact idle.breaker b' _ (coherent.inside i p b' _ here allowed).2
            · cases found
          · simp only [List.getElem?_set,Ne.symm equal,if_false] at found
            exact idle.instances b' cb' found
        · rw [Scene.usageSnoc] at left
          exact idle.breaker b' cb' left
      | _ => exact absurd trivial aside

/-- The breaker counts the successes of the calls that it has admitted in this period. -/
structure Counted (u : Usage) (cb : CircuitBreakerInstance) : Prop where
  successes : cb.state = .HALF_OPEN → cb.consecutiveSuccesses = u.probed
  bounded : cb.state = .HALF_OPEN → (u.probes : Int) ≤ cb.policy.halfOpenSuccessThreshold

/-- No call is known by a period still to come. -/
def Past (u : Usage) : Prop := ∀ x ∈ u.running, ∀ n, x.2 = some n → n ≤ u.period

theorem laterUnused {u : Usage} (past : Past u) : u.running.countP (·.2 = some (u.period + 1)) = 0 := by
  refine List.countP_eq_zero.mpr (fun x mem same => ?_)
  have old := past x mem _ (of_decide_eq_true same)
  omega

theorem enteredPast {u : Usage} {i : Nat} {cb : CircuitBreakerInstance} {now : Int} {call : BreakerCall} (past : Past u) :
    Past (u.entered i cb now call) := by
  cases call with
  | beforeExecution =>
    unfold Usage.entered
    dsimp only
    split
    · exact past
    · split
      · intro x mem n same
        rcases List.mem_cons.mp mem with rfl | old
        · cases same
        · exact past x old n same
      · intro x mem n same
        rcases List.mem_cons.mp mem with rfl | old
        · cases same
          exact Nat.le_refl _
        · exact Nat.le_succ_of_le (past x old n same)
      · intro x mem n same
        rcases List.mem_cons.mp mem with rfl | old
        · cases same
          exact Nat.le_refl _
        · exact past x old n same
  | onSuccess =>
    unfold Usage.entered
    dsimp only
    split <;> exact past
  | onFailure => exact past

theorem failureOutside (cb : CircuitBreakerInstance) (now : Int) : (cb.onFailure now).state ≠ .HALF_OPEN := by
  unfold CircuitBreakerInstance.onFailure
  split
  · simp
  · rename_i closed
    split <;> simp [closed]
  · rename_i opened
    simp [opened]

theorem successOutside {cb : CircuitBreakerInstance} (outside : cb.state ≠ .HALF_OPEN) : cb.onSuccess.state ≠ .HALF_OPEN := by
  unfold CircuitBreakerInstance.onSuccess
  split
  · rename_i half
    exact absurd half outside
  · rename_i closed
    simp [closed]
  · exact outside

theorem successCounted {u : Usage} {i : Nat} {cb : CircuitBreakerInstance} {now : Int} (counted : Counted u cb)
    (own : cb.state = .HALF_OPEN → (i,some u.period) ∈ u.running) : Counted (u.entered i cb now .onSuccess) cb.onSuccess := by
  by_cases half : cb.state = .HALF_OPEN
  · have entered : u.entered i cb now .onSuccess = { u with breaker := some cb.onSuccess, probed := u.probed + 1 } := by
      simp only [Usage.entered,if_pos (own half)]
      rfl
    rw [entered]
    have successes := counted.successes half
    have bounded := counted.bounded half
    unfold CircuitBreakerInstance.onSuccess
    rw [half]
    dsimp only
    split
    · exact ⟨fun closed => (by cases closed),fun closed => (by cases closed)⟩
    · exact ⟨fun _ => by simp [successes],fun _ => bounded⟩
  · have outside := successOutside half
    exact ⟨fun now => absurd now outside,fun now => absurd now outside⟩

theorem admittedCounted {u : Usage} {i : Nat} {cb : CircuitBreakerInstance} {now : Int} (past : Past u) (counted : Counted u cb)
    (room : (cb.beforeExecution now).2 = none → Scene.room u cb = true) :
    Counted (u.entered i cb now .beforeExecution) (cb.beforeExecution now).1 := by
  unfold Usage.entered CircuitBreakerInstance.beforeExecution at *
  cases state : cb.state with
  | CLOSED =>
    simp only [state,reduceCtorEq,if_false,Option.isSome_none,Bool.false_eq_true]
    exact ⟨fun half => absurd (state.symm.trans half) (by decide),fun half => absurd (state.symm.trans half) (by decide)⟩
  | HALF_OPEN =>
    simp only [state,reduceCtorEq,if_false,Option.isSome_none,Bool.false_eq_true,forall_const] at room ⊢
    refine ⟨fun half => counted.successes half,fun half => ?_⟩
    simp only [Scene.room,state,decide_eq_true_eq] at room
    simp only [Usage.probes,List.countP_cons_of_pos,decide_true] at room ⊢
    omega
  | OPEN =>
    simp only [state,if_true] at room ⊢
    by_cases due : cb.policy.recoveryTimeoutMs ≤ now - cb.openedAtMs
    · simp only [due,if_true,Option.isSome_none,Bool.false_eq_true,if_false,forall_const] at room ⊢
      simp only [Scene.room,state,decide_eq_true_eq] at room
      have none_ := laterUnused past
      refine ⟨fun _ => rfl,fun _ => ?_⟩
      simp only [Usage.probes,List.countP_cons_of_pos,decide_true,none_]
      omega
    · simp only [due,if_false,Option.isSome_some,if_true]
      exact ⟨fun half => absurd (state.symm.trans half) (by decide),fun half => absurd (state.symm.trans half) (by decide)⟩

theorem fairSuccess {s : Scene Context Data} {i b : Nat} {p : Phase} {cb : CircuitBreakerInstance} {now : Int}
    (enabled : cb.policy.enabled = true) (met : s.fair i p (entering b .onSuccess cb now : Event (Reply Context Data)) = true)
    (half : cb.state = .HALF_OPEN) : (i,some (s.usage b).period) ∈ (s.usage b).running := by
  simpa [Scene.fair,enabled,half] using met

theorem enteredCounted {s : Scene Context Data} {i b : Nat} {p : Phase} {cb : CircuitBreakerInstance} {now : Int} {call : BreakerCall}
    (enabled : cb.policy.enabled = true) (past : Past (s.usage b)) (counted : Counted (s.usage b) cb)
    (met : s.fair i p (entering b call cb now : Event (Reply Context Data)) = true) :
    Counted ((s.usage b).entered i cb now call) (method cb now call) := by
  cases call with
  | beforeExecution =>
    refine admittedCounted past counted (fun lets => ?_)
    simp only [Scene.fair,enabled,lets,Bool.not_true,Option.isSome_none,Bool.false_or,Bool.and_eq_true] at met
    exact met.2
  | onSuccess => exact successCounted counted (fairSuccess enabled met)
  | onFailure =>
    have outside := failureOutside cb now
    exact ⟨fun half => absurd half outside,fun half => absurd half outside⟩

theorem closingSuccess {s : Scene Context Data} {i b : Nat} {p : Phase} {cb : CircuitBreakerInstance} {now : Int} {call : BreakerCall}
    (enabled : cb.policy.enabled = true) (counted : Counted (s.usage b) cb)
    (met : s.fair i p (entering b call cb now : Event (Reply Context Data)) = true) (half : cb.state = .HALF_OPEN)
    (closed : (method cb now call).state = .CLOSED) : cb.policy.halfOpenSuccessThreshold ≤ ((s.usage b).entered i cb now call).probed := by
  have successes := counted.successes half
  cases call with
  | beforeExecution => simp [method,CircuitBreakerInstance.beforeExecution,half] at closed
  | onSuccess =>
    simp only [Usage.entered,if_pos (fairSuccess enabled met half)]
    simp only [method,CircuitBreakerInstance.onSuccess,half] at closed
    split at closed
    · push_cast
      omega
    · simp [half] at closed
  | onFailure => simp [method,CircuitBreakerInstance.onFailure,half] at closed

theorem afterCases (u : Usage) (b i : Nat) (e : Event (Reply Context Data)) :
    u.after b (i,e) = u ∨ u.after b (i,e) = u.ends i ∨
      ∃ call cb now, e = entering b call cb now ∧ u.after b (i,e) = u.entered i cb now call := by
  obtain ⟨op,r⟩ := e
  cases op with
  | lockBreaker b' call =>
    obtain ⟨cb,now⟩ := r
    by_cases equal : b' = b
    · subst equal
      exact .inr (.inr ⟨call,cb,now,rfl,if_pos rfl⟩)
    · exact .inl (if_neg equal)
  | handler name request =>
    rcases r with panic | result
    · exact .inr (.inl rfl)
    · exact .inl rfl
  | timeNow => exact .inr (.inl rfl)
  | _ => exact .inl rfl

theorem endsCounted {u : Usage} {cb : CircuitBreakerInstance} (i : Nat) (counted : Counted u cb) : Counted (u.ends i) cb := by
  refine ⟨counted.successes,fun half => ?_⟩
  have fewer : (u.ends i).probes ≤ u.probes := List.Sublist.countP_le List.filter_sublist
  have bounded := counted.bounded half
  omega

theorem foundCounted {s : Scene Context Data} {b : Nat} {cb : CircuitBreakerInstance} (coherent : s.Coherent)
    (counted : ∀ cb, (s.usage b).breaker = some cb → cb.policy.enabled = true → Counted (s.usage b) cb)
    (free : b ∉ s.shared.inside) (found : s.shared.instances[b]? = some cb) (enabled : cb.policy.enabled = true) :
    Counted (s.usage b) cb := by
  rcases coherent.outside b cb found free with left | ⟨_,fresh⟩
  · exact counted cb left enabled
  · rw [fresh]
    exact ⟨fun half => (by cases half),fun half => (by cases half)⟩

structure Scene.Admits (s : Scene Context Data) : Prop where
  past : ∀ b, Past (s.usage b)
  counted : ∀ b cb, (s.usage b).breaker = some cb → cb.policy.enabled = true → Counted (s.usage b) cb
  closes : ∀ before i b call (cb : CircuitBreakerInstance) (now : Int) rest, s.log = before ++ (i,entering b call cb now)::rest →
    cb.policy.enabled = true → cb.state = .HALF_OPEN → (method cb now call).state = .CLOSED →
    cb.policy.halfOpenSuccessThreshold ≤ (Scene.usage { s with log := before ++ [(i,entering b call cb now)] } b).probed

theorem admitsStep {s t : Scene Context Data} (coherent : s.Coherent) (admits : s.Admits) (step : Scene.Step calls s t) : t.Admits := by
  cases step with
  | call absent => exact ⟨admits.past,admits.counted,admits.closes⟩
  | @act i p op r shared here allowed performed met =>
    have found {b call cb now} (same : (⟨op,r⟩ : Event (Reply Context Data)) = entering b call cb now) (enabled : cb.policy.enabled = true) :
        Counted (s.usage b) cb := by
      cases same
      exact foundCounted coherent (admits.counted b) performed.1 performed.2.1 enabled
    refine ⟨fun b => ?_,fun b cb left enabled => ?_,fun before j b call cb now rest split enabled half closed => ?_⟩
    · rw [Scene.usageSnoc]
      rcases afterCases (s.usage b) b i ⟨op,r⟩ with same | same | ⟨call,cb,now,_,same⟩
      · rw [same]
        exact admits.past b
      · rw [same]
        exact fun x mem => admits.past b x (List.mem_filter.mp mem).1
      · rw [same]
        exact enteredPast (admits.past b)
    · rw [Scene.usageSnoc] at left ⊢
      rcases afterCases (s.usage b) b i ⟨op,r⟩ with same | same | ⟨call,before,now,event,same⟩
      · rw [same] at left ⊢
        exact admits.counted b cb left enabled
      · rw [same] at left ⊢
        exact endsCounted i (admits.counted b cb left enabled)
      · rw [same] at left ⊢
        rw [enteredBreaker] at left
        cases left
        rw [methodPolicy] at enabled
        rw [event] at met
        exact enteredCounted enabled (admits.past b) (found event enabled) met
    · rcases List.eq_nil_or_concat rest with rfl | ⟨earlier,last,rfl⟩
      · obtain ⟨rfl,same⟩ := List.append_inj' split rfl
        obtain ⟨rfl,event⟩ := Prod.mk.inj (List.singleton_inj.mp same)
        rw [event] at met
        rw [Scene.usageSnoc]
        simp only [Usage.after,if_true]
        exact closingSuccess enabled (found event enabled) met half closed
      · have whole : s.log ++ [(i,⟨op,r⟩)] = (before ++ (j,entering b call cb now)::earlier) ++ [last] := by simpa using split
        exact admits.closes before j b call cb now earlier (List.append_inj' whole rfl).1 enabled half closed

theorem reachesProtects {s : Scene Context Data} (run : Scene.Reaches calls s) : s.Protects := by
  have sound := reachesSound run
  have invariants : s.Idle ∧ s.Admits := by
    clear sound
    induction run with
    | start => exact ⟨⟨by simp,(fun _ _ left => by cases left),by simp⟩,⟨(fun _ x mem => by cases mem),(fun _ _ left => by cases left),by simp⟩⟩
    | step before step ih =>
      have coherent := reachesCoherent before
      exact ⟨idleStep coherent (reachesSound before) ih.1 step,admitsStep coherent ih.2 step⟩
  obtain ⟨idle,admits⟩ := invariants
  refine ⟨idle.instances,idle.refuses,fun i p b policy here loaded admitted known enabled => ?_,
    fun b cb left enabled half => (admits.counted b cb left enabled).bounded half,admits.closes⟩
  obtain ⟨x,known',on,_⟩ := (sound i p here).admitted b loaded admitted
  cases Option.some.inj (known.symm.trans known')
  have once := on enabled
  have few : p.results.length ≤ 1 := by
    rcases once.results with none_ | well | ⟨failed,_⟩
    · simp [none_]
    · simp [well]
    · simp [failed]
  refine ⟨?_,fun ended => ?_⟩
  · rcases once.reported with untold | all
    · simp [untold]
    · rw [all]
      exact few
  · obtain ⟨all,made⟩ := once.ended ended
    rw [all]
    rcases once.results with none_ | well | ⟨failed,_⟩
    · exact absurd none_ made
    · rw [well]
      rfl
    · rw [failed]
      rfl

end

/-! The actor. -/

abbrev Callers (Context Data : Type) := Pool (Reply Context Data) Stop Breakers

abbrev Sends (p : Act Context Data Unit) : Prop := ∃ c : Sent Context Data, p = c.program

section
variable (calls : Nat → Sent Context Data)

def scene (pool : Callers Context Data) : Scene Context Data where
  shared := pool.shared
  phases i := pool.workers[i]?.map (fun w => (guarding (calls i)).phaseAfter {} w.history)
  log := pool.log

def Meets (pool : Callers Context Data) : Move (Reply Context Data) Stop → Prop
  | .call _ => True
  | .act i e => ((scene calls pool).phases i).all (fun p => (scene calls pool).fair i p e) = true

variable {calls} {meets : Callers Context Data → Move (Reply Context Data) Stop → Prop} {pool : Callers Context Data}

theorem callsKeep (run : Pool.Reaches Guards Sends meets { shared := {} } pool) {i : Nat} {w} (here : pool.workers[i]? = some w)
    (called : w.call = (calls i).program) : Keeps (calls i) Anyhow ((guarding (calls i)).phaseAfter {} w.history) w.program :=
  @Pool.reachesConforms _ _ _ _ _ Guards Sends meets _ pool (guarding (calls i)) {} (· = (calls i).program) (Ends Anyhow)
    (fun _ _ same => same ▸ sentKeeps (calls i)) (fun _ _ => trivial) rfl run w (List.mem_of_getElem? here) called

theorem sceneReaches (run : Pool.Reaches Guards Sends (Meets calls) { shared := {} } pool)
    (called : ∀ i w, pool.workers[i]? = some w → w.call = (calls i).program) : Scene.Reaches calls (scene calls pool) := by
  induction run with
  | start => exact .start
  | @step pool move next before step met ih =>
    cases step with
    | @call p ok =>
      have earlier (i) (w : Worker (Reply Context Data) Stop) (here : pool.workers[i]? = some w) : w.call = (calls i).program := by
        refine called i w ?_
        rw [List.getElem?_append_left (List.getElem?_eq_some_iff.mp here).1]
        exact here
      have begins : (scene calls { pool with workers := pool.workers ++ [⟨p,p,[]⟩] }).phases =
          Function.update (scene calls pool).phases pool.workers.length (some {}) := by
        funext i
        rcases Nat.lt_trichotomy i pool.workers.length with old | new | beyond
        · simp [scene,Function.update_of_ne (Nat.ne_of_lt old),List.getElem?_append_left old]
        · subst new
          simp [scene,Protocol.phaseAfter]
        · have over_ : (pool.workers ++ [⟨p,p,[]⟩])[i]? = none := List.getElem?_eq_none (by simp; omega)
          simp [scene,Function.update_of_ne (Nat.ne_of_gt beyond),over_,List.getElem?_eq_none (Nat.le_of_lt beyond)]
      have step : Scene.Step calls (scene calls pool) { scene calls pool with
          phases := Function.update (scene calls pool).phases pool.workers.length (some {}) } := .call (by simp [scene])
      rw [← begins] at step
      exact .step (ih earlier) step
    | @act i call op rest history r shared here performed =>
      have inside := (List.getElem?_eq_some_iff.mp here).1
      have earlier (j) (w : Worker (Reply Context Data) Stop) (there : pool.workers[j]? = some w) : w.call = (calls j).program := by
        by_cases own : i = j
        · subst own
          cases Option.some.inj (here.symm.trans there)
          exact called i ⟨call,rest r,_⟩ (List.getElem?_set_self inside)
        · exact called j w (by rw [List.getElem?_set_ne own]; exact there)
      have phase : (scene calls pool).phases i = some ((guarding (calls i)).phaseAfter {} history) := by
        simp [scene,here]
      have allowed := (callsKeep before here (earlier i _ here)).1
      have fair : (scene calls pool).fair i ((guarding (calls i)).phaseAfter {} history) ⟨op,r⟩ = true := by
        have all : ((scene calls pool).phases i).all (fun p => (scene calls pool).fair i p ⟨op,r⟩) = true := met
        rw [phase] at all
        exact all
      have goes : (scene calls ⟨shared,pool.workers.set i ⟨call,rest r,history ++ [⟨op,r⟩]⟩,pool.log ++ [(i,⟨op,r⟩)]⟩).phases =
          Function.update (scene calls pool).phases i
            (some (((guarding (calls i)).phaseAfter {} history).after (calls i) ⟨op,r⟩)) := by
        funext j
        by_cases own : j = i
        · subst own
          rw [Function.update_self]
          simp only [scene,List.getElem?_set_self inside,Option.map_some,Protocol.phaseSnoc]
          rfl
        · rw [Function.update_of_ne own]
          simp [scene,List.getElem?_set_ne (Ne.symm own)]
      have step : Scene.Step calls (scene calls pool) _ := .act phase allowed performed fair
      rw [← goes] at step
      exact .step (ih earlier) step

end

def answers (user : Surroundings Context Data) (s : Breakers) : (op : Op Context Data) → Reply Context Data op × Breakers
  | .loadBreaker handlerName policy => (Keyed.get s.byHandler handlerName).elim (s.instances.length,
      { s with instances := s.instances ++ [{ policy }], byHandler := (handlerName,s.instances.length)::s.byHandler }) (fun b => (b,s))
  | .lockBreaker b call => ((s.instances[b]?.getD { policy := ⟨true,5,30000,2⟩ },(user (.lockBreaker b call)).2),{ s with inside := b::s.inside })
  | .unlockBreaker b cb => ((),{ s with instances := s.instances.set b cb, inside := s.inside.filter (· ≠ b) })
  | op => (user op,s)

/-- Nobody enters a method that another call is in. -/
def lets (s : Breakers) : Event (Reply Context Data) → Bool
  | ⟨.lockBreaker b _,_⟩ => decide (b ∉ s.inside) && decide (b < s.instances.length)
  | _ => true

theorem answersGuards {user : Surroundings Context Data} {s : Breakers} {op : Op Context Data}
    (free : lets s ⟨op,(answers user s op).1⟩ = true) : Guards s op (answers user s op).1 (answers user s op).2 := by
  cases op with
  | loadBreaker handlerName policy =>
    cases found : Keyed.get s.byHandler handlerName with
    | some b =>
      have kept : answers user s (.loadBreaker handlerName policy) = (b,s) := by simp [answers,found]
      rw [kept]
      exact .inl ⟨found,rfl⟩
    | none =>
      have made : answers user s (.loadBreaker handlerName policy) = (s.instances.length,
          { s with instances := s.instances ++ [{ policy }], byHandler := (handlerName,s.instances.length)::s.byHandler }) := by
        simp [answers,found]
      rw [made]
      exact .inr ⟨rfl,rfl⟩
  | lockBreaker b call =>
    simp only [lets,Bool.and_eq_true,decide_eq_true_eq] at free
    exact ⟨free.1,by simp [answers,free.2],rfl⟩
  | _ => exact rfl

def unhindered (pool : Callers Context Data) : Move (Reply Context Data) Stop → Bool
  | .call _ => true
  | .act _ e => lets pool.shared e

def checks (calls : Nat → Sent Context Data) (pool : Callers Context Data) : Move (Reply Context Data) Stop → Bool
  | .call _ => true
  | .act i e => lets pool.shared e && ((scene calls pool).phases i).all (fun p => (scene calls pool).fair i p e)

/-- A gate whose handler has a breaker. -/
def guarded (enabled : Bool) : DfsmActor Unit Unit where
  machine := gate
  registry := { gateActor.registry with
    globalPolicy := some {
      cbEnabled := some enabled, cbFailureThreshold := some 1, cbRecoveryTimeoutMs := some 10, cbHalfOpenSuccess := some 1 }
    transitions := [("unlock",{})] }

def opens (enabled : Bool) (i : Nat) : Sent Unit Unit where
  a := guarded enabled
  ord := listed
  txId := if i = 0 then "a" else "b"
  eventName := "open"
  rounds := 20
  depth := 0
  input := none

/-- The handler fails for one of the transactions; the breaker is asked ten milliseconds after that. -/
def user : Surroundings Unit Unit
  | .getTransaction txId => .ok (some { gateRecord with transactionId := txId })
  | .createTransaction _ | .updateTransaction _ _ | .pushSagaStep _ _ | .deleteTransaction _ => .ok ()
  | .getSagaStack _ | .listActiveTransactions _ _ => .ok []
  | .popSagaStep _ => .ok none
  | .nowMs | .timeNow => 0
  | .sleep _ => ()
  | .loadBreaker _ _ => 0
  | .lockBreaker _ .beforeExecution => ({ policy := ⟨true,5,30000,2⟩ },10)
  | .lockBreaker _ _ => ({ policy := ⟨true,5,30000,2⟩ },0)
  | .unlockBreaker _ _ => ()
  | .validate _ _ => .ok (.ok ())
  | .handler _ request => if request.transactionId = "a" then .ok (.error "stuck") else .ok (.ok {})
  | .compensation _ _ => .ok ()
  | .effect _ _ _ => .ok (.ok ())
  | .hook _ _ => .ok ()
  | .record _ => .ok ()

/-- One call, and then so many requests of the other. -/
def cues (enabled : Bool) (n : Nat) : List (Pool.Cue (Reply Unit Unit) Stop) :=
  .call (opens enabled 0).program::.call (opens enabled 1).program::(List.replicate 12 (.turn 0) ++ List.replicate n (.turn 1))

def played (enabled : Bool) (n : Nat) : Callers Unit Unit := Pool.play (answers user) (cues enabled n) { shared := {} }

theorem playedRun {enabled : Bool} {n : Nat} {meets : Callers Unit Unit → Move (Reply Unit Unit) Stop → Prop}
    (free : ∀ pool i e, meets pool (.act i e) → lets pool.shared e = true)
    (met : Pool.PlayMeets (answers user) meets (cues enabled n) { shared := {} }) :
    Pool.Reaches Guards Sends meets { shared := {} } (played enabled n) := by
  refine Pool.reachesPlayed (fun pool i op here => answersGuards (free pool i _ here)) (fun cue mem p same => ?_) met .start
  subst same
  simp only [cues,List.mem_cons,List.mem_append,List.mem_replicate,reduceCtorEq,and_false,or_false] at mem
  rcases mem with mem | mem <;> cases mem <;> exact ⟨_,rfl⟩

theorem playedCalled {enabled : Bool} {n : Nat} (i w) (here : (played enabled n).workers[i]? = some w) :
    w.call = (opens enabled i).program := by
  have calls := @Pool.playCalls _ _ _ _ (answers user) (cues enabled n) { shared := {} }
  have started : (cues enabled n).filterMap Pool.Cue.starts = [(opens enabled 0).program,(opens enabled 1).program] := by
    simp [cues,Pool.Cue.starts]
  have mine := congrArg (fun l => l[i]?) calls
  simp only [started,List.map_nil,List.nil_append,List.getElem?_map] at mine
  rw [show (Pool.play (answers user) (cues enabled n) { shared := {} }).workers[i]? = some w from here,Option.map_some] at mine
  rcases i with _ | _ | i
  · exact Option.some.inj mine
  · exact Option.some.inj mine
  · exact absurd mine (by simp)

end Dfsm.Go.Guarding
