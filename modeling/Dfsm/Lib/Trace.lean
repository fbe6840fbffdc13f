import Dfsm.Lib.Program

/-! The events of whole runs, and loops that end at the first round that fails. -/
namespace Program

variable {Op : Type} {Reply : Op → Type} {Err α β γ σ : Type}

theorem runsNil {p q : Program Reply Err α} (run : Runs p [] q) : q = p := by
  cases run
  rfl

/-- What a run asks, in order, with the replies. -/
def trace (answer : (op : Op) → σ → Reply op × σ) : Program Reply Err α → σ → List (Event Reply)
  | done _, _ => []
  | fail _, _ => []
  | ask op next, s => ⟨op,(answer op s).1⟩ :: trace answer (next (answer op s).1) (answer op s).2

/-- The events are a whole run of the program. -/
def Ran (p : Program Reply Err α) (es : List (Event Reply)) : Prop := ∃ q : Program Reply Err α, Runs p es q ∧ q.Ended

variable {answer : (op : Op) → σ → Reply op × σ}

theorem traceRan (p : Program Reply Err α) (s : σ) : p.Ran (trace answer p s) := by
  induction p generalizing s with
  | done a => exact ⟨_,.stop,trivial⟩
  | fail e => exact ⟨_,.stop,trivial⟩
  | ask op next ih =>
    obtain ⟨q,runs,ended⟩ := ih _ (answer op s).2
    exact ⟨q,.step runs,ended⟩

theorem traceBind (p : Program Reply Err α) (f : α → Program Reply Err β) (s : σ) :
    trace answer (p >>= f) s = trace answer p s ++
      match eval answer p s with
      | (.ok a,s) => trace answer (f a) s
      | (.error _,_) => [] := by
  induction p generalizing s with
  | done a => rfl
  | fail e => rfl
  | ask op next ih => exact congrArg (_::·) (ih _ _)

theorem traceVoid (p : Program Reply Err α) (s : σ) : trace answer p.void s = trace answer p s := by
  rw [void,traceBind]
  cases eval answer p s with
  | mk r s => cases r <;> exact List.append_nil _

theorem bindVoid (p : Program Reply Err α) (q : Program Reply Err β) : (p >>= fun _ => q) = (p.void >>= fun _ => q) := by
  rw [void,bindAssoc]
  rfl

theorem voidBind (p : Program Reply Err α) (f : α → Program Reply Err β) : (p >>= f).void = p >>= fun a => (f a).void :=
  bindAssoc p f _

theorem voidFold {body : α → γ → Program Reply Err α} {round : γ → Program Reply Err Unit}
    (each : ∀ a x, (body a x).void = round x) (xs : List γ) (a : α) : (xs.foldlM body a).void = forM xs round := by
  induction xs generalizing a with
  | nil => rfl
  | cons x xs ih =>
    rw [List.foldlM_cons,List.forM_cons,voidBind,← each a x]
    rw [show (fun a => (xs.foldlM body a).void) = fun _ => forM xs round from funext ih]
    exact bindVoid _ _

theorem forFilter (keep : γ → Bool) (round : γ → Program Reply Err Unit) (xs : List γ) :
    forM xs (fun x => if keep x then round x else pure ()) = forM (xs.filter keep) round := by
  induction xs with
  | nil => rfl
  | cons x xs ih =>
    rw [List.forM_cons,ih]
    by_cases kept : keep x = true
    · rw [List.filter_cons_of_pos kept,List.forM_cons,if_pos kept]
    · rw [List.filter_cons_of_neg kept,if_neg kept]
      rfl

/-- The rounds over these elements, each a whole run, and nothing else. -/
structure Rounds (answer : (op : Op) → σ → Reply op × σ) (round : γ → Program Reply Err Unit) (xs : List γ)
    (es : List (Event Reply)) : Prop where
  each : ∀ x ∈ xs, ∃ own, own <:+: es ∧ (round x).Ran own
  only : ∀ e ∈ es, ∃ x ∈ xs, ∃ s, e ∈ trace answer (round x) s

variable {round : γ → Program Reply Err Unit}

theorem noRounds : Rounds answer round [] [] := ⟨by simp,by simp⟩

theorem roundsCons {x : γ} {xs : List γ} {es : List (Event Reply)} (s : σ) (rest : Rounds answer round xs es) :
    Rounds answer round (x::xs) (trace answer (round x) s ++ es) where
  each := by
    intro y y_in
    rcases List.mem_cons.mp y_in with rfl | y_in
    · exact ⟨_,(List.prefix_append _ _).isInfix,traceRan _ s⟩
    · obtain ⟨own,within,ran⟩ := rest.each y y_in
      exact ⟨own,within.trans (List.suffix_append _ _).isInfix,ran⟩
  only := by
    intro e e_in
    rcases List.mem_append.mp e_in with e_in | e_in
    · exact ⟨x,by simp,s,e_in⟩
    · obtain ⟨y,y_in,s,e_in⟩ := rest.only e e_in
      exact ⟨y,List.mem_cons_of_mem x y_in,s,e_in⟩

/-- No round fails before the last; where the last one fails nothing was to come after the
loop, and where none fails the rest goes well. -/
def Flows (answer : (op : Op) → σ → Reply op × σ) (round : γ → Program Reply Err Unit) (nothingElse : Prop) (rest : σ → Prop) :
    List γ → σ → Prop
  | [], s => rest s
  | x::xs, s => match eval answer (round x) s with
    | (.ok _,s) => Flows answer round nothingElse rest xs s
    | (.error _,_) => xs = [] ∧ nothingElse

theorem loopTrace (answer : (op : Op) → σ → Reply op × σ) (round : γ → Program Reply Err Unit) (nothingElse : Prop) (rest : σ → Prop)
    (after : Program Reply Err α) (xs : List γ) (s : σ) :
    (∃ es s', trace answer (forM xs round >>= fun _ => after) s = es ++ trace answer after s' ∧ Rounds answer round xs es ∧
      (Flows answer round nothingElse rest xs s ↔ rest s')) ∨
    ∃ before x left, xs = before ++ x::left ∧
      Rounds answer round (before ++ [x]) (trace answer (forM xs round >>= fun _ => after) s) ∧
      (Flows answer round nothingElse rest xs s ↔ left = [] ∧ nothingElse) := by
  induction xs generalizing s with
  | nil => exact .inl ⟨[],s,rfl,noRounds,Iff.rfl⟩
  | cons x xs ih =>
    rw [List.forM_cons,bindAssoc,traceBind,Flows]
    cases ran : eval answer (round x) s with
    | mk result s' =>
      cases result with
      | error e => exact .inr ⟨[],x,xs,rfl,roundsCons s noRounds,Iff.rfl⟩
      | ok u =>
        rcases ih s' with ⟨es,last,same,rounds,flows⟩ | ⟨before,y,left,rfl,rounds,flows⟩
        · refine .inl ⟨trace answer (round x) s ++ es,last,?_,roundsCons s rounds,flows⟩
          rw [List.append_assoc,← same]
        · exact .inr ⟨x::before,y,left,rfl,roundsCons s rounds,flows⟩

theorem traceObeys {Phase : Type} {rules : Protocol Reply Phase} (possible : ∀ op s, rules.replies op (answer op s).1)
    {phase : Phase} {post : Phase → Except Err α → Prop} {p : Program Reply Err α} (obeys : rules.Obeys post phase p) (s : σ) :
    ∀ e ∈ trace answer p s, ∃ phase, rules.allowed phase e.op := by
  induction p generalizing phase s with
  | done a => exact fun e e_in => absurd e_in List.not_mem_nil
  | fail e => exact fun e e_in => absurd e_in List.not_mem_nil
  | ask op next ih =>
    intro e e_in
    rcases List.mem_cons.mp e_in with rfl | e_in
    · exact ⟨phase,obeys.1⟩
    · exact ih _ (obeys.2 _ (possible op s)) (answer op s).2 e e_in

end Program
