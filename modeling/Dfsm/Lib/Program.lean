import Mathlib.Data.List.Basic

/-! Programs that ask their environment one request at a time, and may fail. A
protocol says which requests are allowed in which phase and what a reply changes. -/

inductive Program {Op : Type} (Reply : Op → Type) (Err α : Type) where
  | done (a : α)
  | fail (e : Err)
  | ask (op : Op) (next : Reply op → Program Reply Err α)

namespace Program

variable {Op : Type} {Reply : Op → Type} {Err α β : Type}

def bind : Program Reply Err α → (α → Program Reply Err β) → Program Reply Err β
  | done a, f => f a
  | fail e, _ => fail e
  | ask op next, f => ask op (fun r => bind (next r) f)

instance : Monad (Program Reply Err) where
  pure := done
  bind := bind

def Ended : Program Reply Err α → Prop
  | ask _ _ => False
  | _ => True

def request (op : Op) : Program Reply Err (Reply op) := ask op done

def ofExcept : Except Err α → Program Reply Err α
  | .ok a => done a
  | .error e => fail e

/-- A failure becomes a value. -/
def attempt : Program Reply Err α → Program Reply Err (Except Err α)
  | done a => done (.ok a)
  | fail e => done (.error e)
  | ask op next => ask op (fun r => attempt (next r))

/-- What is left to run counts, not what the program returns. -/
def void (p : Program Reply Err α) : Program Reply Err Unit := p >>= fun _ => pure ()

/-- Whole runs against an environment that answers every request. -/
def eval {σ : Type} (answer : (op : Op) → σ → Reply op × σ) : Program Reply Err α → σ → Except Err α × σ
  | done a, s => (.ok a,s)
  | fail e, s => (.error e,s)
  | ask op next, s => eval answer (next (answer op s).1) (answer op s).2

@[simp] theorem bindDone (a : α) (f : α → Program Reply Err β) : (done a >>= f) = f a := rfl
@[simp] theorem bindPure (a : α) (f : α → Program Reply Err β) : ((pure a : Program Reply Err α) >>= f) = f a := rfl
@[simp] theorem bindFail (e : Err) (f : α → Program Reply Err β) : (fail e >>= f) = fail e := rfl
@[simp] theorem bindAsk (op : Op) (next : Reply op → Program Reply Err α) (f : α → Program Reply Err β) :
    (ask op next >>= f) = ask op (fun r => next r >>= f) := rfl
@[simp] theorem bindRequest (op : Op) (f : Reply op → Program Reply Err β) :
    ((request op : Program Reply Err (Reply op)) >>= f) = ask op f := rfl

theorem bindDoneRight (p : Program Reply Err α) : p >>= done = p := by
  induction p with
  | done a => rfl
  | fail e => rfl
  | ask op next ih => exact congrArg (ask op) (funext ih)

theorem bindAssoc {γ : Type} (p : Program Reply Err α) (f : α → Program Reply Err β) (g : β → Program Reply Err γ) :
    p >>= f >>= g = p >>= fun a => f a >>= g := by
  induction p with
  | done a => rfl
  | fail e => rfl
  | ask op next ih => exact congrArg (ask op) (funext ih)

instance : LawfulMonad (Program Reply Err) :=
  LawfulMonad.mk' _ (fun p => bindDoneRight p) (fun _ _ => rfl) (fun p f g => bindAssoc p f g)

theorem evalBind {σ : Type} (answer : (op : Op) → σ → Reply op × σ) (p : Program Reply Err α)
    (f : α → Program Reply Err β) (s : σ) : eval answer (p >>= f) s =
      match eval answer p s with
      | (.ok a,s) => eval answer (f a) s
      | (.error e,s) => (.error e,s) := by
  induction p generalizing s with
  | done a => rfl
  | fail e => rfl
  | ask op next ih => exact ih _ _

theorem evalAttempt {σ : Type} (answer : (op : Op) → σ → Reply op × σ) (p : Program Reply Err α) (s : σ) :
    eval answer p.attempt s = (.ok (eval answer p s).1,(eval answer p s).2) := by
  induction p generalizing s with
  | done a => rfl
  | fail e => rfl
  | ask op next ih => exact ih _ _

theorem evalFold {σ γ : Type} {answer : (op : Op) → σ → Reply op × σ} {body : α → γ → Program Reply Err α}
    (keeps : List γ → α → σ → Prop)
    (step : ∀ x xs a s, keeps (x::xs) a s → ∃ a', (eval answer (body a x) s).1 = .ok a' ∧ keeps xs a' (eval answer (body a x) s).2)
    (xs : List γ) {a : α} {s : σ} (start : keeps xs a s) :
    ∃ a', (eval answer (xs.foldlM body a) s).1 = .ok a' ∧ keeps [] a' (eval answer (xs.foldlM body a) s).2 := by
  induction xs generalizing a s with
  | nil => exact ⟨a,rfl,start⟩
  | cons x xs ih =>
    obtain ⟨a',ok,kept⟩ := step x xs a s start
    rw [List.foldlM_cons,evalBind]
    cases ran : eval answer (body a x) s with
    | mk result s' =>
      rw [ran] at ok kept
      cases ok
      exact ih kept

end Program

namespace Program

variable {Op : Type} {Reply : Op → Type} {Err α β : Type} {good : Op → Prop}

/-- Whatever the replies, the program asks only requests of a kind. -/
def Asks (good : Op → Prop) : Program Reply Err α → Prop
  | done _ => True
  | fail _ => True
  | ask op next => good op ∧ ∀ r, Asks good (next r)

theorem asksMono {good' : Op → Prop} {p : Program Reply Err α} (asks : p.Asks good) (weaker : ∀ op, good op → good' op) :
    p.Asks good' := by
  induction p with
  | done a => trivial
  | fail e => trivial
  | ask op next ih => exact ⟨weaker op asks.1,fun r => ih r (asks.2 r)⟩

theorem asksBind {p : Program Reply Err α} {f : α → Program Reply Err β} (asks : p.Asks good) (rest : ∀ a, (f a).Asks good) :
    (p >>= f).Asks good := by
  induction p with
  | done a => exact rest a
  | fail e => trivial
  | ask op next ih => exact ⟨asks.1,fun r => ih r (asks.2 r)⟩

theorem asksRequest {op : Op} {f : Reply op → Program Reply Err α} (asks : good op) (rest : ∀ r, (f r).Asks good) :
    ((request op : Program Reply Err (Reply op)) >>= f).Asks good :=
  ⟨asks,rest⟩

theorem asksAttempt {p : Program Reply Err α} (asks : p.Asks good) : p.attempt.Asks good := by
  induction p with
  | done a => trivial
  | fail e => trivial
  | ask op next ih => exact ⟨asks.1,fun r => ih r (asks.2 r)⟩

theorem asksExcept {x : Except Err α} : (ofExcept x : Program Reply Err α).Asks good := by
  cases x <;> trivial

theorem asksFold {γ : Type} {body : α → γ → Program Reply Err α} (each : ∀ a x, (body a x).Asks good) (xs : List γ) (a : α) :
    (xs.foldlM body a).Asks good := by
  induction xs generalizing a with
  | nil => trivial
  | cons x xs ih =>
    rw [List.foldlM_cons]
    exact asksBind (each a x) ih

theorem asksMap {γ : Type} {body : γ → Program Reply Err α} (each : ∀ x, (body x).Asks good) (xs : List γ) :
    (xs.mapM body).Asks good := by
  induction xs with
  | nil => trivial
  | cons x xs ih =>
    rw [List.mapM_cons]
    exact asksBind (each x) (fun _ => asksBind ih (fun _ => trivial))

/-- It asks only requests of a kind, and returns. -/
def Finishes (good : Op → Prop) : Program Reply Err α → Prop
  | done _ => True
  | fail _ => False
  | ask op next => good op ∧ ∀ r, Finishes good (next r)

theorem finishesBind {p : Program Reply Err α} {f : α → Program Reply Err β} (finishes : p.Finishes good)
    (rest : ∀ a, (f a).Finishes good) : (p >>= f).Finishes good := by
  induction p with
  | done a => exact rest a
  | fail e => exact finishes.elim
  | ask op next ih => exact ⟨finishes.1,fun r => ih r (finishes.2 r)⟩

theorem finishesFold {γ : Type} {body : α → γ → Program Reply Err α} (each : ∀ a x, (body a x).Finishes good) (xs : List γ) (a : α) :
    (xs.foldlM body a).Finishes good := by
  induction xs generalizing a with
  | nil => trivial
  | cons x xs ih =>
    rw [List.foldlM_cons]
    exact finishesBind (each a x) ih

end Program

/-- An event of a run: a request and its reply. -/
structure Event {Op : Type} (Reply : Op → Type) where
  op : Op
  reply : Reply op

namespace Program

variable {Op : Type} {Reply : Op → Type} {Err α β : Type}

/-- The program gets through these events to what is left of it. -/
inductive Runs : Program Reply Err α → List (Event Reply) → Program Reply Err α → Prop where
  | stop {p} : Runs p [] p
  | step {op next r es p} (rest : Runs (next r) es p) : Runs (ask op next) (⟨op,r⟩::es) p

/-- The events of the run whose replies are these, and what it ends in. -/
def transcript (answer : (op : Op) → Reply op) : Program Reply Err α → List (Event Reply)
  | ask op next => ⟨op,answer op⟩::transcript answer (next (answer op))
  | _ => []

def endsIn (answer : (op : Op) → Reply op) : Program Reply Err α → Program Reply Err α
  | ask op next => endsIn answer (next (answer op))
  | p => p

theorem transcriptRuns (answer : (op : Op) → Reply op) (p : Program Reply Err α) :
    Runs p (transcript answer p) (endsIn answer p) := by
  induction p with
  | done a => exact .stop
  | fail e => exact .stop
  | ask op next ih => exact .step (ih _)

theorem runsSnoc {p q : Program Reply Err α} {es op next} {r : Reply op} (run : Runs p es q) (here : q = ask op next) :
    Runs p (es ++ [⟨op,r⟩]) (next r) := by
  induction run with
  | stop => rw [here]; exact .step .stop
  | step _ ih => exact .step (ih here)

end Program

/-- Which requests are allowed in a phase, which replies there can be, and the phase a
reply leads to. -/
structure Protocol {Op : Type} (Reply : Op → Type) (Phase : Type) where
  allowed : Phase → Op → Prop
  replies : (op : Op) → Reply op → Prop
  after : Phase → (op : Op) → Reply op → Phase

namespace Protocol

variable {Op : Type} {Reply : Op → Type} {Phase Err α β : Type} (rules : Protocol Reply Phase)

/-- From this phase on the program asks only what is allowed, whatever the replies;
`post` is what holds of the phase and the result at the end. -/
def Obeys (post : Phase → Except Err α → Prop) : Phase → Program Reply Err α → Prop
  | phase, .done a => post phase (.ok a)
  | phase, .fail e => post phase (.error e)
  | phase, .ask op next => rules.allowed phase op ∧
      ∀ r, rules.replies op r → Obeys post (rules.after phase op r) (next r)

variable {rules} {phase : Phase} {post : Phase → Except Err α → Prop}

theorem obeysMono {post' : Phase → Except Err α → Prop} {p : Program Reply Err α} (obeys : rules.Obeys post phase p)
    (weaker : ∀ phase r, post phase r → post' phase r) : rules.Obeys post' phase p := by
  induction p generalizing phase with
  | done a => exact weaker _ _ obeys
  | fail e => exact weaker _ _ obeys
  | ask op next ih => exact ⟨obeys.1,fun r possible => ih r (obeys.2 r possible)⟩

/-- What a sequence has to meet at the end of its first part. -/
def Then (rules : Protocol Reply Phase) (post : Phase → Except Err β → Prop) (f : α → Program Reply Err β) :
    Phase → Except Err α → Prop
  | phase, .ok a => rules.Obeys post phase (f a)
  | phase, .error e => post phase (.error e)

theorem obeysBind {post : Phase → Except Err β → Prop} {p : Program Reply Err α} {f : α → Program Reply Err β}
    (obeys : rules.Obeys (rules.Then post f) phase p) : rules.Obeys post phase (p >>= f) := by
  induction p generalizing phase with
  | done a => exact obeys
  | fail e => exact obeys
  | ask op next ih => exact ⟨obeys.1,fun r possible => ih r (obeys.2 r possible)⟩

theorem obeysAttempt {post : Phase → Except Err (Except Err α) → Prop} {p : Program Reply Err α}
    (obeys : rules.Obeys (fun phase r => post phase (.ok r)) phase p) :
    rules.Obeys post phase p.attempt := by
  induction p generalizing phase with
  | done a => exact obeys
  | fail e => exact obeys
  | ask op next ih => exact ⟨obeys.1,fun r possible => ih r (obeys.2 r possible)⟩

theorem obeysAsks {good : Op → Prop} {inv : Phase → Prop} {p : Program Reply Err α} (asks : p.Asks good)
    (kept : ∀ phase op, inv phase → good op → rules.allowed phase op ∧ ∀ r, rules.replies op r → inv (rules.after phase op r))
    (start : inv phase) : rules.Obeys (fun phase _ => inv phase) phase p := by
  induction p generalizing phase with
  | done a => exact start
  | fail e => exact start
  | ask op next ih =>
    obtain ⟨allowed,after⟩ := kept phase op start asks.1
    exact ⟨allowed,fun r possible => ih r (asks.2 r) (after r possible)⟩

theorem obeysWithin {Phase' : Type} {rules' : Protocol Reply Phase'} {phase' : Phase'} {post' : Phase' → Except Err α → Prop}
    {inv : Phase → Prop} {p : Program Reply Err α} (obeys : rules'.Obeys post' phase' p)
    (kept : ∀ phase phase' op, inv phase → rules'.allowed phase' op →
      rules.allowed phase op ∧ ∀ r, rules.replies op r → rules'.replies op r ∧ inv (rules.after phase op r))
    (start : inv phase) : rules.Obeys (fun phase _ => inv phase) phase p := by
  induction p generalizing phase phase' with
  | done a => exact start
  | fail e => exact start
  | ask op next ih =>
    obtain ⟨allowed,after⟩ := kept phase phase' op start obeys.1
    exact ⟨allowed,fun r possible => ih r (obeys.2 r (after r possible).1) (after r possible).2⟩

/-- Where the program returns `good` holds of the phase and the result, and where it
fails `bad` holds of the phase. -/
def Within (good : Phase → α → Prop) (bad : Phase → Prop) : Phase → Except Err α → Prop
  | phase, .ok a => good phase a
  | phase, .error _ => bad phase

abbrev Ends (good : Phase → α → Prop) : Phase → Except Err α → Prop := Within good (fun _ => True)

theorem obeysFinishes {good : Op → Prop} {post : Phase → Except Err β → Prop} {p : Program Reply Err α} {f : α → Program Reply Err β}
    (finishes : p.Finishes good) (kept : ∀ op, good op → rules.allowed phase op ∧ ∀ r, rules.after phase op r = phase)
    (rest : ∀ a, rules.Obeys post phase (f a)) : rules.Obeys post phase (p >>= f) := by
  induction p with
  | done a => exact rest a
  | fail e => exact finishes.elim
  | ask op next ih =>
    obtain ⟨allowed,same⟩ := kept op finishes.1
    refine ⟨allowed,fun r _ => ?_⟩
    rw [same]
    exact ih r (finishes.2 r)

theorem obeysPure {good : Phase → α → Prop} {a : α} (holds : good phase a) :
    rules.Obeys (Ends good) phase (pure a : Program Reply Err α) := holds

theorem obeysAsk {op : Op} {post : Phase → Except Err β → Prop} {f : Reply op → Program Reply Err β}
    (allowed : rules.allowed phase op) (rest : ∀ r, rules.replies op r → rules.Obeys post (rules.after phase op r) (f r)) :
    rules.Obeys post phase (Program.request op >>= f) :=
  ⟨allowed,rest⟩

theorem obeysSeq (good : Phase → α → Prop) {good' : Phase → β → Prop} {bad : Phase → Prop} {p : Program Reply Err α}
    {f : α → Program Reply Err β} (obeys : rules.Obeys (Within good bad) phase p)
    (rest : ∀ phase a, good phase a → rules.Obeys (Within good' bad) phase (f a)) :
    rules.Obeys (Within good' bad) phase (p >>= f) := by
  refine obeysBind (obeysMono obeys ?_)
  intro phase r holds
  cases r with
  | ok a => exact rest phase a holds
  | error e => exact holds

/-- With what holds where the program fails told of the failure. -/
def Outcome (good : Phase → α → Prop) (bad : Phase → Err → Prop) : Phase → Except Err α → Prop
  | phase, .ok a => good phase a
  | phase, .error e => bad phase e

theorem obeysThen (good : Phase → α → Prop) {good' : Phase → β → Prop} {bad : Phase → Err → Prop} {p : Program Reply Err α}
    {f : α → Program Reply Err β} (obeys : rules.Obeys (Outcome good bad) phase p)
    (rest : ∀ phase a, good phase a → rules.Obeys (Outcome good' bad) phase (f a)) :
    rules.Obeys (Outcome good' bad) phase (p >>= f) := by
  refine obeysBind (obeysMono obeys ?_)
  intro phase r holds
  cases r with
  | ok a => exact rest phase a holds
  | error e => exact holds

theorem obeysEach {γ : Type} (keeps : Phase → α → Prop) {bad : Phase → Err → Prop} {body : α → γ → Program Reply Err α}
    (step : ∀ x phase a, keeps phase a → rules.Obeys (Outcome keeps bad) phase (body a x)) (xs : List γ) {a : α}
    (start : keeps phase a) : rules.Obeys (Outcome keeps bad) phase (xs.foldlM body a) := by
  induction xs generalizing phase a with
  | nil => exact start
  | cons x xs ih =>
    rw [List.foldlM_cons]
    exact obeysThen _ (step x phase a start) (fun _ _ holds => ih holds)

theorem obeysExcept {good : Phase → β → Prop} {x : Except Err α} {f : α → Program Reply Err β}
    (rest : ∀ a, x = .ok a → rules.Obeys (Ends good) phase (f a)) :
    rules.Obeys (Ends good) phase (Program.ofExcept x >>= f) := by
  cases x with
  | ok a => exact rest a rfl
  | error e => trivial

theorem obeysFold {γ : Type} (keeps : List γ → Phase → α → Prop) {bad : Phase → Prop}
    {body : α → γ → Program Reply Err α}
    (step : ∀ x xs phase a, keeps (x::xs) phase a → rules.Obeys (Within (keeps xs) bad) phase (body a x))
    (xs : List γ) {a : α} (start : keeps xs phase a) :
    rules.Obeys (Within (keeps []) bad) phase (xs.foldlM body a) := by
  induction xs generalizing phase a with
  | nil => exact start
  | cons x xs ih =>
    rw [List.foldlM_cons]
    exact obeysSeq _ (step x xs phase a start) (fun _ _ holds => ih holds)

theorem obeysLoop {γ : Type} (keeps : List γ → Phase → α → Prop) {post : Phase → Except Err α → Prop}
    {body : α → γ → Program Reply Err α}
    (step : ∀ x xs phase a, keeps (x::xs) phase a →
      rules.Obeys (Within (keeps xs) (fun phase => ∀ e, post phase (.error e))) phase (body a x))
    (xs : List γ) {a : α} (start : keeps xs phase a) (last : ∀ phase a, keeps [] phase a → post phase (.ok a)) :
    rules.Obeys post phase (xs.foldlM body a) := by
  refine obeysMono (obeysFold keeps step xs start) ?_
  intro phase r holds
  cases r with
  | ok a => exact last phase a holds
  | error e => exact holds e

def phaseAfter (rules : Protocol Reply Phase) (phase : Phase) (es : List (Event Reply)) : Phase :=
  es.foldl (fun phase e => rules.after phase e.op e.reply) phase

theorem obeysRuns {p : Program Reply Err α} {es a} (obeys : rules.Obeys post phase p)
    (possible : ∀ e ∈ es, rules.replies e.op e.reply) (run : Program.Runs p es (.done a)) :
    post (rules.phaseAfter phase es) (.ok a) := by
  induction p generalizing phase es with
  | done b =>
    cases run with
    | stop => exact obeys
  | fail e => cases run
  | ask op next ih =>
    cases run with
    | @step _ _ r _ _ rest =>
      have here := obeys.2 r (possible ⟨op,r⟩ List.mem_cons_self)
      have later := ih r here (fun e mem => possible e (List.mem_cons_of_mem _ mem)) rest
      exact later

theorem phaseSnoc (phase : Phase) (es : List (Event Reply)) (e : Event Reply) :
    rules.phaseAfter phase (es ++ [e]) = rules.after (rules.phaseAfter phase es) e.op e.reply := by
  simp [phaseAfter]

end Protocol
