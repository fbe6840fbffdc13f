import Dfsm.Lib.Program

/-! Whole runs of programs some of whose requests are answered by running another program in
the same place. The trace has the events of the inner program before the request itself. -/
namespace Program

variable {Op : Type} {Reply : Op → Type} {Err σ α β Phase : Type}

section
variable (serves : σ → (op : Op) → Reply op → σ → Prop) (inner : (op : Op) → Option (Program Reply Err (Reply op)))

inductive Exec : {α : Type} → Program Reply Err α → σ → List (Event Reply) → Except Err α → σ → Prop where
  | done {α s} {a : α} : Exec (.done a) s [] (.ok a) s
  | fail {α s e} : Exec (.fail e : Program Reply Err α) s [] (.error e) s
  | ask {α op s r s' es result s''} {next : Reply op → Program Reply Err α} (direct : inner op = none) (served : serves s op r s')
      (rest : Exec (next r) s' es result s'') : Exec (.ask op next) s (⟨op,r⟩::es) result s''
  | nested {α op p s first r s' es result s''} {next : Reply op → Program Reply Err α} (within : inner op = some p)
      (run : Exec p s first (.ok r) s') (rest : Exec (next r) s' es result s'') :
      Exec (.ask op next) s (first ++ ⟨op,r⟩::es) result s''

end

variable {serves : σ → (op : Op) → Reply op → σ → Prop} {inner : (op : Op) → Option (Program Reply Err (Reply op))}
  {p : Program Reply Err α} {s s' : σ} {es : List (Event Reply)} {result : Except Err α}

theorem execBind {f : α → Program Reply Err β} {result : Except Err β} (run : Exec serves inner (p >>= f) s es result s') :
    (∃ e, result = .error e ∧ Exec serves inner p s es (.error e) s') ∨
      ∃ a s₁ first last, es = first ++ last ∧ Exec serves inner p s first (.ok a) s₁ ∧ Exec serves inner (f a) s₁ last result s' := by
  induction p generalizing s es with
  | done a => exact .inr ⟨a,s,[],es,rfl,.done,run⟩
  | fail e =>
    cases run with
    | fail => exact .inl ⟨e,rfl,.fail⟩
  | ask op next ih =>
    cases run with
    | ask direct served rest =>
      rcases ih _ rest with ⟨e,failed,run⟩ | ⟨a,s₁,first,last,split,run,rest⟩
      · exact .inl ⟨e,failed,.ask direct served run⟩
      · exact .inr ⟨a,s₁,_::first,last,by rw [split]; rfl,.ask direct served run,rest⟩
    | nested within whole rest =>
      rcases ih _ rest with ⟨e,failed,run⟩ | ⟨a,s₁,first,last,split,run,rest⟩
      · exact .inl ⟨e,failed,.nested within whole run⟩
      · exact .inr ⟨a,s₁,_,last,by rw [split,← List.cons_append,← List.append_assoc],.nested within whole run,rest⟩

theorem execThen {f : α → Program Reply Err β} {b : β} (run : Exec serves inner (p >>= f) s es (.ok b) s') :
    ∃ a s₁ first last, es = first ++ last ∧ Exec serves inner p s first (.ok a) s₁ ∧ Exec serves inner (f a) s₁ last (.ok b) s' := by
  rcases execBind run with ⟨e,failed,_⟩ | through
  · contradiction
  · exact through

theorem execAsk {op : Op} {next : Reply op → Program Reply Err α} (direct : inner op = none)
    (run : Exec serves inner (.ask op next) s es result s') :
    ∃ r s₁ rest, es = ⟨op,r⟩::rest ∧ serves s op r s₁ ∧ Exec serves inner (next r) s₁ rest result s' := by
  cases run with
  | ask _ served rest => exact ⟨_,_,_,rfl,served,rest⟩
  | nested within _ _ =>
    rw [direct] at within
    contradiction

theorem execRequest {op : Op} {f : Reply op → Program Reply Err α} (direct : inner op = none)
    (run : Exec serves inner (request op >>= f) s es result s') :
    ∃ r s₁ rest, es = ⟨op,r⟩::rest ∧ serves s op r s₁ ∧ Exec serves inner (f r) s₁ rest result s' :=
  execAsk direct run

theorem execFold {view : σ → β} {step : β → Event Reply → β}
    (each : ∀ s op r s', inner op = none → serves s op r s' → view s' = step (view s) ⟨op,r⟩)
    (still : ∀ b op r p, inner op = some p → step b ⟨op,r⟩ = b) (run : Exec serves inner p s es result s') :
    view s' = es.foldl step (view s) := by
  induction run with
  | done => rfl
  | fail => rfl
  | ask direct served rest ih => rw [ih,each _ _ _ _ direct served,List.foldl_cons]
  | nested within run rest first second => rw [second,List.foldl_append,List.foldl_cons,still _ _ _ _ within,first]

theorem execAsks {good : Op → Prop} (asks : p.Asks good) (direct : ∀ op, good op → inner op = none)
    (run : Exec serves inner p s es result s') : ∀ e ∈ es, good e.op := by
  induction p generalizing s es with
  | done a => cases run with | done => simp
  | fail e => cases run with | fail => simp
  | ask op next ih =>
    obtain ⟨r,s₁,rest,split,_,rest_⟩ := execAsk (direct op asks.1) run
    subst split
    intro e mem
    rcases List.mem_cons.mp mem with here | later
    · subst here
      exact asks.1
    · exact ih r (asks.2 r) rest_ e later

theorem execObeys {rules : Protocol Reply Phase} {view : σ → Phase} {post : Phase → Except Err α → Prop}
    (each : ∀ s op r s', inner op = none → serves s op r s' → rules.replies op r ∧ rules.after (view s) op r = view s')
    (within : ∀ op p s, inner op = some p → rules.allowed (view s) op → rules.Obeys (fun phase result =>
      ∀ s' r, phase = view s' → result = .ok r → rules.replies op r ∧ rules.after (view s) op r = phase) (view s) p)
    (run : Exec serves inner p s es result s') (obeys : rules.Obeys post (view s) p) :
    post (view s') result ∧ ∀ e ∈ es, ∃ s, rules.allowed (view s) e.op := by
  induction run with
  | done => exact ⟨obeys,by simp⟩
  | fail => exact ⟨obeys,by simp⟩
  | @ask _ op s r s' es result s'' next direct served rest ih =>
    obtain ⟨replies,after⟩ := each _ _ _ _ direct served
    have rest := obeys.2 _ replies
    rw [after] at rest
    obtain ⟨last,allowed⟩ := ih rest
    refine ⟨last,fun e mem => ?_⟩
    rcases List.mem_cons.mp mem with here | later
    · exact ⟨s,by rw [here]; exact obeys.1⟩
    · exact allowed e later
  | @nested _ op p s first r s' es result s'' next known run rest firstly secondly =>
    obtain ⟨ended,below⟩ := firstly (within op p s known obeys.1)
    obtain ⟨replies,after⟩ := ended s' r rfl rfl
    have rest := obeys.2 _ replies
    rw [after] at rest
    obtain ⟨last,allowed⟩ := secondly rest
    refine ⟨last,fun e mem => ?_⟩
    rcases List.mem_append.mp mem with inside | outside
    · exact below e inside
    · rcases List.mem_cons.mp outside with here | later
      · exact ⟨s,by rw [here]; exact obeys.1⟩
      · exact allowed e later

/-- A protocol against what the trace shows and what the state is, where a request that runs an
inner program may start it from a weaker phase and find another one after it. -/
theorem execSimulates {γ : Type} {rules : Protocol Reply Phase} {sim : γ → σ → Phase → Prop} {step : γ → Event Reply → γ}
    {post : Phase → Except Err α → Prop}
    (each : ∀ g s op r s' phase, inner op = none → serves s op r s' → rules.allowed phase op → sim g s phase →
      rules.replies op r ∧ sim (step g ⟨op,r⟩) s' (rules.after phase op r))
    (within : ∀ g s op p phase, inner op = some p → rules.allowed phase op → sim g s phase → ∃ first, sim g s first ∧
      rules.Obeys (fun last result => ∀ g s r, sim g s last → result = .ok r →
        rules.replies op r ∧ sim (step g ⟨op,r⟩) s (rules.after phase op r)) first p)
    (run : Exec serves inner p s es result s') {g : γ} {phase : Phase} (obeys : rules.Obeys post phase p) (start : sim g s phase) :
    ∃ last, sim (es.foldl step g) s' last ∧ post last result := by
  induction run generalizing g phase with
  | done => exact ⟨phase,start,obeys⟩
  | fail => exact ⟨phase,start,obeys⟩
  | ask direct served rest ih =>
    obtain ⟨replies,later⟩ := each _ _ _ _ _ _ direct served obeys.1 start
    exact ih (obeys.2 _ replies) later
  | nested known run rest firstly secondly =>
    obtain ⟨first,weaker,inside⟩ := within _ _ _ _ _ known obeys.1 start
    obtain ⟨last,there,ended⟩ := firstly inside weaker
    obtain ⟨replies,later⟩ := ended _ _ _ there rfl
    rw [List.foldl_append,List.foldl_cons]
    exact secondly (obeys.2 _ replies) later

/-! Running them. -/

section
variable (inner) (answer : σ → (op : Op) → Reply op × σ)

/-- Up to the requests whose inner programs do not end. -/
def runWith (deeper : (op : Op) → Program Reply Err (Reply op) → σ → Option (List (Event Reply) × Reply op × σ)) :
    Program Reply Err α → σ → Option (List (Event Reply) × Except Err α × σ)
  | done a, s => some ([],.ok a,s)
  | fail e, s => some ([],.error e,s)
  | ask op next, s => match inner op with
    | none => (runWith deeper (next (answer s op).1) (answer s op).2).map (fun rest => (⟨op,(answer s op).1⟩::rest.1,rest.2))
    | some p => (deeper op p s).bind (fun first =>
        (runWith deeper (next first.2.1) first.2.2).map (fun rest => (first.1 ++ ⟨op,first.2.1⟩::rest.1,rest.2)))

/-- Inner programs of inner programs, for as many levels as there is fuel. -/
def runInner : Nat → (op : Op) → Program Reply Err (Reply op) → σ → Option (List (Event Reply) × Reply op × σ)
  | 0, _, _, _ => none
  | fuel+1, _, p, s => (runWith inner answer (runInner fuel) p s).bind (fun ran => match ran.2.1 with
    | .ok r => some (ran.1,r,ran.2.2)
    | .error _ => none)

end

variable {answer : σ → (op : Op) → Reply op × σ}

theorem runWithExec {deeper : (op : Op) → Program Reply Err (Reply op) → σ → Option (List (Event Reply) × Reply op × σ)}
    (answers : ∀ s op, inner op = none → serves s op (answer s op).1 (answer s op).2)
    (sound : ∀ op p s first r s', deeper op p s = some (first,r,s') → Exec serves inner p s first (.ok r) s')
    (ran : runWith inner answer deeper p s = some (es,result,s')) : Exec serves inner p s es result s' := by
  induction p generalizing s es with
  | done a =>
    cases ran
    exact .done
  | fail e =>
    cases ran
    exact .fail
  | ask op next ih =>
    rw [runWith] at ran
    split at ran
    · rename_i direct
      obtain ⟨⟨rest,result',s''⟩,after,same⟩ := Option.map_eq_some_iff.mp ran
      cases same
      exact .ask direct (answers _ _ direct) (ih _ after)
    · rename_i p within
      obtain ⟨⟨first,r,s₁⟩,run,ran⟩ := Option.bind_eq_some_iff.mp ran
      obtain ⟨⟨rest,result',s''⟩,after,same⟩ := Option.map_eq_some_iff.mp ran
      cases same
      exact .nested within (sound _ _ _ _ _ _ run) (ih _ after)

theorem runInnerExec (answers : ∀ s op, inner op = none → serves s op (answer s op).1 (answer s op).2) (fuel : Nat) {op : Op}
    {p : Program Reply Err (Reply op)} {s first r s'} (ran : runInner inner answer fuel op p s = some (first,r,s')) :
    Exec serves inner p s first (.ok r) s' := by
  induction fuel generalizing op s first s' with
  | zero => contradiction
  | succ fuel ih =>
    obtain ⟨⟨es,result,s₁⟩,run,same⟩ := Option.bind_eq_some_iff.mp ran
    have exec := runWithExec answers (fun _ _ _ _ _ _ ran => ih ran) run
    cases result with
    | error e => contradiction
    | ok r =>
      cases same
      exact exec

end Program
