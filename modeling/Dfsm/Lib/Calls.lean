import Mathlib.Data.List.Chain
import Mathlib.Logic.Relation

/-! Stacks of calls: a frame makes steps of its own, calls another frame and goes on with
what it returns. How deep the stack can get is how long calls can nest. -/

/-- `resumes` is the frame after the call it waits for has returned. -/
structure Frames (Frame Reply : Type) where
  moves : Frame → Frame → Prop
  calls : Frame → Frame → Prop
  ends : Frame → Reply → Prop
  resumes : Frame → Reply → Frame → Prop

namespace Frames

variable {Frame Reply : Type} (rules : Frames Frame Reply)

/-- The innermost frame first. -/
inductive Step : List Frame → List Frame → Prop where
  | own {f f' stack} (moves : rules.moves f f') : Step (f::stack) (f'::stack)
  | call {f g stack} (calls : rules.calls f g) : Step (f::stack) (g::f::stack)
  | ret {f f' g r stack} (ends : rules.ends g r) (resumes : rules.resumes f r f') : Step (g::f::stack) (f'::stack)

abbrev Reaches (start : Frame) (stack : List Frame) : Prop := Relation.ReflTransGen rules.Step [start] stack

/-- How far one frame gets, its calls returning whatever they can return. -/
inductive Goes : Frame → Frame → Prop where
  | refl {f} : Goes f f
  | own {f f' f''} (before : Goes f f') (moves : rules.moves f' f'') : Goes f f''
  | nested {f f' f'' g g' r} (before : Goes f f') (calls : rules.calls f' g) (inner : Goes g g') (ends : rules.ends g' r)
      (resumes : rules.resumes f' r f'') : Goes f f''

def Nests (f g : Frame) : Prop := ∃ f', rules.Goes f f' ∧ rules.calls f' g

/-- Each frame waits where it has called the next one. -/
inductive Stands (start : Frame) : List Frame → Prop where
  | one {f} (goes : rules.Goes start f) : Stands start [f]
  | more {f g g' stack} (below : Stands start (f::stack)) (calls : rules.calls f g) (goes : rules.Goes g g') :
      Stands start (g'::f::stack)

/-- Calls one in the other, the innermost first. -/
def Chain (start : Frame) (chain : List Frame) : Prop := (chain ++ [start]).IsChain (fun g f => rules.Nests f g)

variable {rules} {start : Frame} {stack : List Frame}

theorem goesTrans {f f' f'' : Frame} (first : rules.Goes f f') (second : rules.Goes f' f'') : rules.Goes f f'' := by
  induction second with
  | refl => exact first
  | own _ moves ih => exact .own (ih first) moves
  | nested _ calls inner ends resumes ih => exact .nested (ih first) calls inner ends resumes

theorem goesReaches {f f' : Frame} (goes : rules.Goes f f') (stack : List Frame) :
    Relation.ReflTransGen rules.Step (f::stack) (f'::stack) := by
  induction goes generalizing stack with
  | refl => exact .refl
  | own before moves ih => exact (ih stack).tail (.own moves)
  | nested before calls inner ends resumes first second =>
    exact (((first stack).tail (.call calls)).trans (second _)).tail (.ret ends resumes)

theorem standsTop {f f' : Frame} (stands : rules.Stands start (f::stack)) (further : ∀ g, rules.Goes g f → rules.Goes g f') :
    rules.Stands start (f'::stack) := by
  cases stands with
  | one goes => exact .one (further _ goes)
  | more below calls goes => exact .more below calls (further _ goes)

theorem stepStands {next : List Frame} (stands : rules.Stands start stack) (step : rules.Step stack next) : rules.Stands start next := by
  cases step with
  | own moves => exact standsTop stands (fun _ goes => .own goes moves)
  | call calls => exact .more stands calls .refl
  | ret ends resumes =>
    cases stands with
    | more below calls inner => exact standsTop below (fun _ goes => .nested goes calls inner ends resumes)

theorem reachesStands : rules.Reaches start stack ↔ rules.Stands start stack := by
  constructor
  · intro reaches
    induction reaches with
    | refl => exact .one .refl
    | tail _ step ih => exact stepStands ih step
  · intro stands
    induction stands with
    | one goes => exact goesReaches goes []
    | more _ calls goes ih => exact (ih.tail (.call calls)).trans (goesReaches goes _)

/-- A property of every frame above the frames that wait below it. -/
def Stacked (good : List Frame → Frame → Prop) : List Frame → Prop
  | [] => True
  | f::below => good below f ∧ Stacked good below

theorem stepStacked {good : List Frame → Frame → Prop} {next : List Frame}
    (own : ∀ f f' below, good below f → rules.moves f f' → good below f')
    (call : ∀ f g below, good below f → rules.calls f g → good (f::below) g)
    (ret : ∀ f r f' below, good below f → rules.resumes f r f' → good below f')
    (stacked : Stacked good stack) (step : rules.Step stack next) : Stacked good next := by
  cases step with
  | own moves => exact ⟨own _ _ _ stacked.1 moves,stacked.2⟩
  | call calls => exact ⟨call _ _ _ stacked.1 calls,stacked⟩
  | ret ends resumes => exact ⟨ret _ _ _ _ stacked.2.1 resumes,stacked.2.2⟩

theorem reachesStacked {good : List Frame → Frame → Prop}
    (own : ∀ f f' below, good below f → rules.moves f f' → good below f')
    (call : ∀ f g below, good below f → rules.calls f g → good (f::below) g)
    (ret : ∀ f r f' below, good below f → rules.resumes f r f' → good below f')
    (first : good [] start) (reaches : rules.Reaches start stack) : Stacked good stack := by
  induction reaches with
  | refl => exact ⟨first,trivial⟩
  | tail _ step ih => exact stepStacked own call ret ih step

theorem standsChain (stands : rules.Stands start stack) :
    ∃ f rest g chain, stack = f::rest ∧ rules.Goes g f ∧ (g::chain).IsChain (fun g f => rules.Nests f g) ∧
      (g::chain).getLast? = some start ∧ chain.length = rest.length := by
  induction stands with
  | one goes => exact ⟨_,[],start,[],rfl,goes,.singleton _,rfl,rfl⟩
  | more below calls goes ih =>
    obtain ⟨f,rest,g,chain,same,inner,nested,last,short⟩ := ih
    obtain ⟨rfl,rfl⟩ := List.cons.inj same
    exact ⟨_,_,_,g::chain,rfl,goes,.cons_cons ⟨_,inner,calls⟩ nested,by rwa [List.getLast?_cons_cons],congrArg (· + 1) short⟩

theorem chainStands {g : Frame} {chain : List Frame} (nested : (g::chain).IsChain (fun g f => rules.Nests f g))
    (last : (g::chain).getLast? = some start) : ∃ stack, rules.Stands start (g::stack) ∧ stack.length = chain.length := by
  induction chain generalizing g with
  | nil =>
    cases last
    exact ⟨[],.one .refl,rfl⟩
  | cons f chain ih =>
    obtain ⟨⟨f',goes,calls⟩,nested⟩ := List.isChain_cons_cons.mp nested
    rw [List.getLast?_cons_cons] at last
    obtain ⟨stack,stands,short⟩ := ih nested last
    exact ⟨f'::stack,.more (standsTop stands (fun _ before => goesTrans before goes)) calls .refl,congrArg (· + 1) short⟩

theorem heights (n : Nat) :
    (∃ stack, rules.Reaches start stack ∧ stack.length = n + 1) ↔ ∃ chain, rules.Chain start chain ∧ chain.length = n := by
  constructor
  · rintro ⟨stack,reaches,high⟩
    obtain ⟨f,rest,g,chain,rfl,_,nested,last,short⟩ := standsChain (reachesStands.mp reaches)
    have whole := List.dropLast_append_getLast? start last
    refine ⟨(g::chain).dropLast,by rwa [Chain,whole],?_⟩
    rw [List.length_dropLast]
    simp only [List.length_cons] at high ⊢
    omega
  · rintro ⟨chain,nested,long⟩
    rcases whole : chain ++ [start] with _ | ⟨g,above⟩
    · simp at whole
    · rw [Chain,whole] at nested
      have last : (g::above).getLast? = some start := by rw [← whole,List.getLast?_concat]
      obtain ⟨stack,stands,short⟩ := chainStands nested last
      have lengths := congrArg List.length whole
      simp only [List.length_append,List.length_cons,List.length_nil] at lengths
      exact ⟨g::stack,reachesStands.mpr stands,by rw [List.length_cons]; omega⟩

end Frames
