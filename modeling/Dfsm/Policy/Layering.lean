import Dfsm.Policy.Merger

/-! Policy layering leaf by leaf. A policy is the sum of its leaves; each way to put the
partials of a layer together is seen in what its result mentions of each leaf. -/
namespace Dfsm.Policy
open Layers

inductive Leaf where
  | maxAttempts | retryIf | strategy | initialDelayMs | maxDelayMs | multiplier
  | enabled | key | failureThreshold | slidingWindowSize | openDurationMs | halfOpenMaxCalls
  | compensate | target | benchmark | compensateHandler

def Leaf.Value (Error : Type) : Leaf → Type
  | .maxAttempts | .failureThreshold | .slidingWindowSize | .halfOpenMaxCalls => Nat
  | .retryIf => Error → Bool
  | .strategy => BackoffStrategy
  | .initialDelayMs | .maxDelayMs | .multiplier => ℚ
  | .enabled | .compensate | .benchmark => Bool
  | .key | .target | .compensateHandler => String
  | .openDurationMs => Int

variable {Error : Type}

/-- The leaves of a normalized policy; two of them may be missing. -/
def NormalizedTransitionPolicy.leaf (policy : NormalizedTransitionPolicy Error) : (l : Leaf) → Option (l.Value Error)
  | .maxAttempts => some policy.retry.maxAttempts
  | .retryIf => policy.retry.retryIf
  | .strategy => some policy.retry.backoff.strategy
  | .initialDelayMs => some policy.retry.backoff.initialDelayMs
  | .maxDelayMs => some policy.retry.backoff.maxDelayMs
  | .multiplier => some policy.retry.backoff.multiplier
  | .enabled => some policy.circuitBreaker.enabled
  | .key => some policy.circuitBreaker.key
  | .failureThreshold => some policy.circuitBreaker.failureThreshold
  | .slidingWindowSize => some policy.circuitBreaker.slidingWindowSize
  | .openDurationMs => some policy.circuitBreaker.openDurationMs
  | .halfOpenMaxCalls => some policy.circuitBreaker.halfOpenMaxCalls
  | .compensate => some policy.onFail.compensate
  | .target => some policy.onFail.target
  | .benchmark => some policy.benchmark.enabled
  | .compensateHandler => policy.compensateHandler

namespace PartialTransitionPolicy
variable (policy : PartialTransitionPolicy Error)

/-- What a partial policy mentions of each leaf, key by key: `decorators` look at it so. -/
def mentions : (l : Leaf) → Field (l.Value Error)
  | .maxAttempts => policy.retry.join.bind (·.maxAttempts)
  | .retryIf => policy.retry.join.bind (·.retryIf)
  | .strategy => (policy.retry.join.bind (·.backoff.join)).bind (·.strategy)
  | .initialDelayMs => (policy.retry.join.bind (·.backoff.join)).bind (·.initialDelayMs)
  | .maxDelayMs => (policy.retry.join.bind (·.backoff.join)).bind (·.maxDelayMs)
  | .multiplier => (policy.retry.join.bind (·.backoff.join)).bind (·.multiplier)
  | .enabled => policy.circuitBreaker.join.bind (·.enabled)
  | .key => policy.circuitBreaker.join.bind (·.key)
  | .failureThreshold => policy.circuitBreaker.join.bind (·.failureThreshold)
  | .slidingWindowSize => policy.circuitBreaker.join.bind (·.slidingWindowSize)
  | .openDurationMs => policy.circuitBreaker.join.bind (·.openDurationMs)
  | .halfOpenMaxCalls => policy.circuitBreaker.join.bind (·.halfOpenMaxCalls)
  | .compensate => policy.onFail.join.bind (·.compensate)
  | .target => policy.onFail.join.bind (·.target)
  | .benchmark => policy.benchmark.join.bind (·.enabled)
  | .compensateHandler => policy.compensateHandler

/-- The leaves a partial policy sets; `undefined` sets none. -/
def leaf (l : Leaf) : Option (l.Value Error) := (policy.mentions l).join

/-- Whether the section a leaf belongs to is an own key. -/
def hasSection : Leaf → Bool
  | .maxAttempts | .retryIf | .strategy | .initialDelayMs | .maxDelayMs | .multiplier => policy.retry.isSome
  | .enabled | .key | .failureThreshold | .slidingWindowSize | .openDurationMs | .halfOpenMaxCalls =>
    policy.circuitBreaker.isSome
  | .compensate | .target => policy.onFail.isSome
  | .benchmark => policy.benchmark.isSome
  | .compensateHandler => policy.compensateHandler.isSome

/-- What it mentions of each leaf where whole sections are replaced. -/
def replaces (l : Leaf) : Field (l.Value Error) := if policy.hasSection l then some (policy.leaf l) else none

end PartialTransitionPolicy

/-- The policy whose leaves are given, the rest as in the SDK's own. -/
def ofLeaves (defaultBreakerKey : String) (leaf : (l : Leaf) → Option (l.Value Error)) : NormalizedTransitionPolicy Error :=
  let own : NormalizedTransitionPolicy Error := SDK_DEFAULT_POLICY defaultBreakerKey
  { retry := {
      maxAttempts := (leaf .maxAttempts).getD own.retry.maxAttempts
      retryIf := leaf .retryIf
      backoff := {
        strategy := (leaf .strategy).getD own.retry.backoff.strategy
        initialDelayMs := (leaf .initialDelayMs).getD own.retry.backoff.initialDelayMs
        maxDelayMs := (leaf .maxDelayMs).getD own.retry.backoff.maxDelayMs
        multiplier := (leaf .multiplier).getD own.retry.backoff.multiplier } }
    circuitBreaker := {
      enabled := (leaf .enabled).getD own.circuitBreaker.enabled
      key := (leaf .key).getD own.circuitBreaker.key
      failureThreshold := (leaf .failureThreshold).getD own.circuitBreaker.failureThreshold
      slidingWindowSize := (leaf .slidingWindowSize).getD own.circuitBreaker.slidingWindowSize
      openDurationMs := (leaf .openDurationMs).getD own.circuitBreaker.openDurationMs
      halfOpenMaxCalls := (leaf .halfOpenMaxCalls).getD own.circuitBreaker.halfOpenMaxCalls }
    onFail := {
      compensate := (leaf .compensate).getD own.onFail.compensate
      target := (leaf .target).getD own.onFail.target }
    benchmark := { enabled := (leaf .benchmark).getD own.benchmark.enabled }
    compensateHandler := leaf .compensateHandler }

theorem someAssigned {α : Type} (value : α) (field : Field α) : some (assigned value field) = field.join.or (some value) := by
  unfold assigned
  cases field.join <;> rfl

theorem leavesTell {a b : NormalizedTransitionPolicy Error} (same : ∀ l, a.leaf l = b.leaf l) : a = b := by
  obtain ⟨⟨_,⟨_,_,_,_⟩,_⟩,⟨_,_,_,_,_,_⟩,⟨_,_⟩,⟨_⟩,_⟩ := a
  obtain ⟨⟨_,⟨_,_,_,_⟩,_⟩,⟨_,_,_,_,_,_⟩,⟨_,_⟩,⟨_⟩,_⟩ := b
  cases Option.some.inj (same .maxAttempts)
  cases same .retryIf
  cases Option.some.inj (same .strategy)
  cases Option.some.inj (same .initialDelayMs)
  cases Option.some.inj (same .maxDelayMs)
  cases Option.some.inj (same .multiplier)
  cases Option.some.inj (same .enabled)
  cases Option.some.inj (same .key)
  cases Option.some.inj (same .failureThreshold)
  cases Option.some.inj (same .slidingWindowSize)
  cases Option.some.inj (same .openDurationMs)
  cases Option.some.inj (same .halfOpenMaxCalls)
  cases Option.some.inj (same .compensate)
  cases Option.some.inj (same .target)
  cases Option.some.inj (same .benchmark)
  cases same .compensateHandler
  rfl

theorem ofLeavesLeaf (key : String) (leaf : (l : Leaf) → Option (l.Value Error)) (l : Leaf) :
    (ofLeaves key leaf).leaf l = (leaf l).or ((SDK_DEFAULT_POLICY key).leaf l) := by
  have given {α : Type} (value : Option α) (default : α) : some (value.getD default) = value.or (some default) := by
    cases value <;> rfl
  cases l with
  | retryIf => exact (Option.or_none).symm
  | compensateHandler => exact (Option.or_none).symm
  | _ => exact given _ _

theorem readLayerLeaf (policy : NormalizedTransitionPolicy Error) (layer : PartialTransitionPolicy Error) (l : Leaf) :
    (readLayer policy layer).leaf l = (layer.leaf l).or (policy.leaf l) := by
  cases l with
  | compensateHandler => rfl
  | benchmark =>
    simp only [PartialTransitionPolicy.leaf,PartialTransitionPolicy.mentions,NormalizedTransitionPolicy.leaf,readLayer]
    cases layer.benchmark.join with
    | none => rfl
    | some benchmark => exact someAssigned _ _
  | compensate | target =>
    simp only [PartialTransitionPolicy.leaf,PartialTransitionPolicy.mentions,NormalizedTransitionPolicy.leaf,readLayer]
    cases layer.onFail.join with
    | none => rfl
    | some onFail => exact someAssigned _ _
  | maxAttempts =>
    simp only [PartialTransitionPolicy.leaf,PartialTransitionPolicy.mentions,NormalizedTransitionPolicy.leaf,readLayer]
    cases layer.retry.join with
    | none => rfl
    | some retry => exact someAssigned _ _
  | retryIf =>
    simp only [PartialTransitionPolicy.leaf,PartialTransitionPolicy.mentions,NormalizedTransitionPolicy.leaf,readLayer]
    cases layer.retry.join with
    | none => rfl
    | some retry => rfl
  | strategy | initialDelayMs | maxDelayMs | multiplier =>
    simp only [PartialTransitionPolicy.leaf,PartialTransitionPolicy.mentions,NormalizedTransitionPolicy.leaf,readLayer]
    cases layer.retry.join with
    | none => rfl
    | some retry =>
      simp only [readRetry,Option.bind_some]
      cases retry.backoff.join with
      | none => rfl
      | some backoff => exact someAssigned _ _
  | enabled | key | failureThreshold | slidingWindowSize | openDurationMs | halfOpenMaxCalls =>
    simp only [PartialTransitionPolicy.leaf,PartialTransitionPolicy.mentions,NormalizedTransitionPolicy.leaf,readLayer]
    cases layer.circuitBreaker.join with
    | none => rfl
    | some circuitBreaker => exact someAssigned _ _

theorem normalizedLeaf (inputs : PolicyMergeInputs Error) (l : Leaf) :
    (normalizeTransitionPolicy inputs).leaf l =
      (latest (·.leaf l) ([inputs.globalDefaults,inputs.machineDefaults,inputs.transitionPolicy,inputs.decoratorPolicy].filterMap
        id)).or ((SDK_DEFAULT_POLICY inputs.defaultBreakerKey).leaf l) := by
  simp only [normalizeTransitionPolicy]
  generalize [inputs.globalDefaults,inputs.machineDefaults,inputs.transitionPolicy,inputs.decoratorPolicy].filterMap id = layers
  generalize SDK_DEFAULT_POLICY inputs.defaultBreakerKey = policy
  induction layers generalizing policy with
  | nil => rfl
  | cons layer layers ih => rw [List.foldl_cons,ih,readLayerLeaf,latestCons,Option.or_assoc]

theorem sectionsShow {σ α : Type} {empty : σ} {both : σ → σ → σ} {read : σ → Field α} (none_ : read empty = none)
    (wins : ∀ target patch, read (both target patch) = (read patch).or (read target)) (target patch : Field σ) :
    (spreadSections empty both target patch).join.bind read = (patch.join.bind read).or (target.join.bind read) := by
  unfold spreadSections
  cases there : target.join with
  | none =>
    cases here : patch.join with
    | none =>
      have gone : (patch.or target).join = none := by
        cases patch with
        | none => exact there
        | some value => exact here
      simp [gone]
    | some patch => simp [wins,none_]
  | some target =>
    cases patch.join with
    | none => simp [wins,none_]
    | some patch => simp [wins]

theorem backoffShows {α : Type} {read : PartialBackoffPolicy → Field α} (none_ : read {} = none)
    (wins : ∀ target patch, read (spreadBackoff target patch) = (read patch).or (read target))
    (target patch : Field (PartialRetryPolicy Error)) :
    ((spreadSections {} spreadRetry target patch).join.bind (·.backoff.join)).bind read =
      ((patch.join.bind (·.backoff.join)).bind read).or ((target.join.bind (·.backoff.join)).bind read) := by
  simp only [Option.bind_assoc]
  refine sectionsShow (by simp) (fun target patch => ?_) target patch
  exact sectionsShow none_ wins target.backoff patch.backoff

theorem upsertMentions (existing policy : PartialTransitionPolicy Error) (l : Leaf) :
    (upsertPolicy existing (some policy)).mentions l = (policy.mentions l).or (existing.mentions l) := by
  cases l with
  | compensateHandler => rfl
  | strategy | initialDelayMs | maxDelayMs | multiplier => exact backoffShows rfl (fun _ _ => rfl) existing.retry policy.retry
  | maxAttempts | retryIf => exact sectionsShow rfl (fun _ _ => rfl) existing.retry policy.retry
  | compensate | target => exact sectionsShow rfl (fun _ _ => rfl) existing.onFail policy.onFail
  | benchmark => exact sectionsShow rfl (fun _ _ => rfl) existing.benchmark policy.benchmark
  | enabled | key | failureThreshold | slidingWindowSize | openDurationMs | halfOpenMaxCalls =>
    exact sectionsShow rfl (fun _ _ => rfl) existing.circuitBreaker policy.circuitBreaker

theorem spreadReplaces (target patch : PartialTransitionPolicy Error) (l : Leaf) :
    (spread target patch).replaces l = (patch.replaces l).or (target.replaces l) := by
  have either {σ α : Type} (target patch : Field σ) (read : Field σ → Option α) :
      (if (patch.or target).isSome then some (read (patch.or target)) else none) =
        (if patch.isSome then some (read patch) else none).or (if target.isSome then some (read target) else none) := by
    cases patch <;> rfl
  cases l with
  | compensateHandler => exact either target.compensateHandler patch.compensateHandler Option.join
  | maxAttempts => exact either target.retry patch.retry (fun s => (s.join.bind (·.maxAttempts)).join)
  | retryIf => exact either target.retry patch.retry (fun s => (s.join.bind (·.retryIf)).join)
  | strategy => exact either target.retry patch.retry (fun s => ((s.join.bind (·.backoff.join)).bind (·.strategy)).join)
  | initialDelayMs =>
    exact either target.retry patch.retry (fun s => ((s.join.bind (·.backoff.join)).bind (·.initialDelayMs)).join)
  | maxDelayMs => exact either target.retry patch.retry (fun s => ((s.join.bind (·.backoff.join)).bind (·.maxDelayMs)).join)
  | multiplier => exact either target.retry patch.retry (fun s => ((s.join.bind (·.backoff.join)).bind (·.multiplier)).join)
  | enabled => exact either target.circuitBreaker patch.circuitBreaker (fun s => (s.join.bind (·.enabled)).join)
  | key => exact either target.circuitBreaker patch.circuitBreaker (fun s => (s.join.bind (·.key)).join)
  | failureThreshold =>
    exact either target.circuitBreaker patch.circuitBreaker (fun s => (s.join.bind (·.failureThreshold)).join)
  | slidingWindowSize =>
    exact either target.circuitBreaker patch.circuitBreaker (fun s => (s.join.bind (·.slidingWindowSize)).join)
  | openDurationMs => exact either target.circuitBreaker patch.circuitBreaker (fun s => (s.join.bind (·.openDurationMs)).join)
  | halfOpenMaxCalls =>
    exact either target.circuitBreaker patch.circuitBreaker (fun s => (s.join.bind (·.halfOpenMaxCalls)).join)
  | compensate => exact either target.onFail patch.onFail (fun s => (s.join.bind (·.compensate)).join)
  | target => exact either target.onFail patch.onFail (fun s => (s.join.bind (·.target)).join)
  | benchmark => exact either target.benchmark patch.benchmark (fun s => (s.join.bind (·.enabled)).join)

theorem replacesLeaf (policy : PartialTransitionPolicy Error) (l : Leaf) : (policy.replaces l).join = policy.leaf l := by
  unfold PartialTransitionPolicy.replaces
  split
  · rfl
  · rename_i gone
    cases l with
    | compensateHandler =>
      simp only [PartialTransitionPolicy.hasSection,Option.isSome_iff_ne_none,ne_eq,not_not] at gone
      rw [PartialTransitionPolicy.leaf,PartialTransitionPolicy.mentions,gone]
      rfl
    | _ =>
      simp only [PartialTransitionPolicy.hasSection,Option.isSome_iff_ne_none,ne_eq,not_not] at gone
      rw [PartialTransitionPolicy.leaf,PartialTransitionPolicy.mentions,gone]
      rfl

/-- What an application says about one transition: several partials in three of the layers. -/
structure Layering (Error : Type) where
  defaultBreakerKey : String
  globals : List (PartialTransitionPolicy Error) := []
  machine : List (PartialTransitionPolicy Error) := []
  transition : PartialTransitionPolicy Error := {}
  decorators : List (PartialTransitionPolicy Error) := []

namespace Layering
variable (s : Layering Error)

/-- What the SDK makes of it. -/
def normalized : NormalizedTransitionPolicy Error :=
  normalizeTransitionPolicy {
    defaultBreakerKey := s.defaultBreakerKey
    globalDefaults := some (s.globals.foldl (fun globalDefaults policy => configure globalDefaults (some policy)) {})
    machineDefaults := some (s.machine.foldl defaults {})
    transitionPolicy := some s.transition
    decoratorPolicy := some (s.decorators.foldl (fun existing policy => upsertPolicy existing (some policy)) {}) }

/-- Each leaf as the last partial sets it that sets it at all, in the order of precedence. -/
def merged : NormalizedTransitionPolicy Error :=
  ofLeaves s.defaultBreakerKey (fun l => latest (·.leaf l) (s.globals ++ s.machine ++ [s.transition] ++ s.decorators))

/-- What each layer mentions of a leaf, the highest layer first: decorators go key by key,
the defaults section by section. -/
def layers (l : Leaf) : List (List (Field (l.Value Error))) :=
  [s.decorators.map (·.mentions l),[s.transition.mentions l],s.machine.map (·.replaces l),s.globals.map (·.replaces l)]

/-- The highest layer that sets the leaf mentions it last where it sets it, or nothing is lost by it. -/
def KeepsLeaf (l : Leaf) : Prop := Layers.Kept ((SDK_DEFAULT_POLICY s.defaultBreakerKey).leaf l) (s.layers l)

theorem decoratedLeaf (l : Leaf) :
    (s.decorators.foldl (fun existing policy => upsertPolicy existing (some policy)) {}).leaf l =
      (settled (s.decorators.map (·.mentions l))).join := by
  have mentioned := @combined _ _ (·.mentions l) (fun existing policy => upsertPolicy existing (some policy))
    (fun existing policy => upsertMentions existing policy l) {} s.decorators
  have start : ({} : PartialTransitionPolicy Error).mentions l = none := by cases l <;> rfl
  rw [PartialTransitionPolicy.leaf,mentioned,start,Option.or_none,settled,latestMap]
  rfl

theorem spreadLeaf (policies : List (PartialTransitionPolicy Error)) (l : Leaf) :
    (policies.foldl spread {}).leaf l = (settled (policies.map (·.replaces l))).join := by
  have replaced := @combined _ _ (·.replaces l) spread (fun target patch => spreadReplaces target patch l) {} policies
  have start : ({} : PartialTransitionPolicy Error).replaces l = none := by cases l <;> rfl
  rw [← replacesLeaf,replaced,start,Option.or_none,settled,latestMap]
  rfl

theorem normalizedLayers (l : Leaf) : s.normalized.leaf l =
    ((s.layers l).findSome? (fun layer => (settled layer).join)).or ((SDK_DEFAULT_POLICY s.defaultBreakerKey).leaf l) := by
  have globals : (s.globals.foldl (fun globalDefaults policy => configure globalDefaults (some policy)) {}).leaf l = _ :=
    spreadLeaf s.globals l
  have machine : (s.machine.foldl defaults {}).leaf l = _ := spreadLeaf s.machine l
  have decorators := s.decoratedLeaf l
  have transition : (settled [s.transition.mentions l]).join = s.transition.leaf l := by rw [settledOne]; rfl
  rw [normalized,normalizedLeaf]
  simp only [List.filterMap_cons,List.filterMap_nil,id,latestCons,latestNil,layers,List.findSome?_cons,List.findSome?_nil]
  rw [globals,machine,decorators,transition]
  cases (settled (s.decorators.map (·.mentions l))).join <;> cases s.transition.leaf l <;>
    cases (settled (s.machine.map (·.replaces l))).join <;> cases (settled (s.globals.map (·.replaces l))).join <;> rfl

theorem mergedLayers (l : Leaf) : s.merged.leaf l =
    ((s.layers l).findSome? asked).or ((SDK_DEFAULT_POLICY s.defaultBreakerKey).leaf l) := by
  have replaced (policies : List (PartialTransitionPolicy Error)) :
      asked (policies.map (·.replaces l)) = latest (·.leaf l) policies := by
    rw [asked,latestMap]
    congr 1
    funext policy
    exact replacesLeaf policy l
  have decorators : asked (s.decorators.map (·.mentions l)) = latest (·.leaf l) s.decorators := by
    rw [asked,latestMap]
    rfl
  have transition : asked [s.transition.mentions l] = latest (·.leaf l) [s.transition] := rfl
  rw [merged,ofLeavesLeaf,layers]
  simp only [latestAppend,List.findSome?_cons,List.findSome?_nil,replaced,decorators,transition]
  cases latest (·.leaf l) s.decorators <;> cases latest (·.leaf l) [s.transition] <;>
    cases latest (·.leaf l) s.machine <;> cases latest (·.leaf l) s.globals <;> rfl

/-- Layering is leaf by leaf exactly where no layer loses a leaf it set. -/
theorem layeringComposed : s.normalized = s.merged ↔ ∀ l, s.KeepsLeaf l := by
  constructor
  · intro same l
    refine (keptIff _ _).mp ?_
    rw [← normalizedLayers,← mergedLayers,same]
  · intro keeps
    refine leavesTell (fun l => ?_)
    rw [normalizedLayers,mergedLayers]
    exact (keptIff _ _).mpr (keeps l)

/-- `defaults({ retry: { maxAttempts: 2 } })`, and then a backoff. -/
def twice : Layering Unit where
  defaultBreakerKey := "shop:cart:pay"
  machine := [{ retry := some (some { maxAttempts := some (some 2) }) },
    { retry := some (some { backoff := some (some { strategy := some (some .fixed) }) }) }]

/-- The second call takes the attempts of the first away. -/
theorem layeringComposedTwice : ¬ ∀ s : Layering Unit, s.normalized = s.merged := by
  intro claim
  have attempts := congrArg (·.retry.maxAttempts) (claim twice)
  exact absurd attempts (by decide)

end Layering

end Dfsm.Policy
