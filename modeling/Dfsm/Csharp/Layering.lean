import Dfsm.Csharp.Policies
import Dfsm.Extension.Policies
import Dfsm.Go.Layering

/-! Policy layering of the C# SDK: what it parses and merges of a document and of the policies
in code, leaf by leaf, against the specification and the TypeScript SDK. -/
namespace Dfsm.Csharp.Layering
open Layers
open Extension (jsAt closedProp leafChecked extractedLeaf extractedWhole runtimePolicy runtimeLeaf)

inductive Leaf where
  | maxAttempts | strategy | initialDelayMs | maxDelayMs | multiplier | enabled | failureThreshold | openDurationMs
  | halfOpenMaxCalls | target | compensate | compensateHandler | benchmark
  deriving DecidableEq

/-- Strategies are told apart by their letters, not their case. -/
def lower (name : String) : String := String.ofList (name.toList.map Char.toLower)

def integer (n : Int) : YamlScalar := .number n

/-- The leaves a layer in code sets. One that describes a breaker switches it on. -/
def PartialTransitionPolicy.leaf (p : PartialTransitionPolicy) : Leaf → Option YamlScalar
  | .maxAttempts => p.retryMaxAttempts.map integer
  | .strategy => p.retryBackoff.map (fun name => .text (lower name))
  | .initialDelayMs => p.retryBackoffMs.map integer
  | .maxDelayMs => p.retryMaxBackoffMs.map integer
  | .multiplier => p.retryBackoffFactor.map .number
  | .enabled => if p.marksCircuitBreaker then some (.flag true) else none
  | .failureThreshold => p.cbFailureThreshold.map integer
  | .openDurationMs => p.cbRecoveryTimeoutMs.map integer
  | .halfOpenMaxCalls => p.cbHalfOpenSuccessThreshold.map integer
  | .target => p.onFailTarget.map .text
  | .compensate => p.onFailCompensate.map .flag
  | .compensateHandler => p.compensateWith.map .text
  | .benchmark => p.benchmarkEnabled.map .flag

/-- The leaves of a policy. A breaker that it has is enforced; without one the settings are the
specification's, as they are without `onFail`. No handler is null. -/
def TransitionPolicy.leaf (policy : TransitionPolicy) : Leaf → YamlScalar
  | .maxAttempts => integer policy.retry.maxAttempts
  | .strategy => .text (lower policy.retry.backoff)
  | .initialDelayMs => integer policy.retry.backoffMs
  | .maxDelayMs => integer policy.retry.maxBackoffMs
  | .multiplier => .number policy.retry.backoffFactor
  | .enabled => .flag policy.circuitBreaker.isSome
  | .failureThreshold => (policy.circuitBreaker.map (integer ·.failureThreshold)).getD (.number 5)
  | .openDurationMs => (policy.circuitBreaker.map (integer ·.recoveryTimeoutMs)).getD (.number 30000)
  | .halfOpenMaxCalls => (policy.circuitBreaker.map (integer ·.halfOpenSuccessThreshold)).getD (.number 1)
  | .target => ((policy.onFail.bind (·.target)).map .text).getD (.text "error")
  | .compensate => (policy.onFail.map (.flag ·.compensate)).getD (.flag false)
  | .compensateHandler => (policy.compensateWith.map .text).getD .null
  | .benchmark => .flag policy.benchmark.enabled

/-- The SDK defaults of the specification. -/
def specified : Leaf → YamlScalar
  | .maxAttempts => .number 1
  | .strategy => .text "exponential"
  | .initialDelayMs => .number 100
  | .maxDelayMs => .number 5000
  | .multiplier => .number 2
  | .enabled => .flag false
  | .failureThreshold => .number 5
  | .openDurationMs => .number 30000
  | .halfOpenMaxCalls => .number 1
  | .target => .text "error"
  | .compensate => .flag false
  | .compensateHandler => .null
  | .benchmark => .flag true

/-- What a leaf is by default in a section that a layer marks. -/
def own : Leaf → YamlScalar
  | .maxDelayMs => .number 10000
  | .enabled => .flag true
  | .halfOpenMaxCalls => .number 2
  | l => specified l

/-- And where no layer marks the section. -/
def absent : Leaf → YamlScalar
  | .maxDelayMs => .number 10000
  | l => specified l

def PartialTransitionPolicy.marks (p : PartialTransitionPolicy) : Leaf → Bool
  | .maxAttempts | .strategy | .initialDelayMs | .maxDelayMs | .multiplier => p.marksRetry
  | .enabled | .failureThreshold | .openDurationMs | .halfOpenMaxCalls => p.marksCircuitBreaker
  | .target | .compensate => p.marksOnFail
  | .compensateHandler => p.compensateWith.isSome
  | .benchmark => p.benchmarkEnabled.isSome

theorem mergeLeaf (layers : List (Option PartialTransitionPolicy)) (l : Leaf) :
    (Merge layers).leaf l = spoken (·.marks l) (·.leaf l) (own l) (absent l) (layers.filterMap id) := by
  have taken {α : Type} (field : Option α) (value : α) (show_ : α → YamlScalar) :
      show_ (field.getD value) = (field.map show_).getD (show_ value) := by
    cases field <;> rfl
  have handler (below : List PartialTransitionPolicy) : ((below.findSome? (·.compensateWith)).map YamlScalar.text).getD .null =
      spoken (·.compensateWith.isSome) (fun p => p.compensateWith.map .text) .null .null below := by
    induction below with
    | nil => rfl
    | cons p below ih =>
      rw [List.findSome?_cons]
      cases named : p.compensateWith with
      | none => rw [spoken,List.find?_cons_of_neg (by simp [named])]; exact ih
      | some name => rw [spoken,List.find?_cons_of_pos (by simp [named])]; simp [named]
  cases l with
  | compensateHandler => exact handler _
  | maxAttempts | initialDelayMs | maxDelayMs | multiplier =>
    simp only [TransitionPolicy.leaf,Merge,spoken,PartialTransitionPolicy.marks]
    cases (layers.filterMap id).find? (·.marksRetry) with
    | none => rfl
    | some p => exact taken _ _ _
  | strategy =>
    simp only [TransitionPolicy.leaf,Merge,spoken,PartialTransitionPolicy.marks]
    have same : YamlScalar.text (lower "EXPONENTIAL") = .text "exponential" := by decide +kernel
    cases (layers.filterMap id).find? (·.marksRetry) with
    | none => exact same
    | some p => exact (taken p.retryBackoff "EXPONENTIAL" (fun name => .text (lower name))).trans (congrArg _ same)
  | enabled =>
    simp only [TransitionPolicy.leaf,Merge,spoken,PartialTransitionPolicy.marks]
    cases found : (layers.filterMap id).find? (·.marksCircuitBreaker) with
    | none => rfl
    | some p => simp [PartialTransitionPolicy.leaf,List.find?_some found]
  | failureThreshold | openDurationMs | halfOpenMaxCalls =>
    simp only [TransitionPolicy.leaf,Merge,spoken,PartialTransitionPolicy.marks]
    cases (layers.filterMap id).find? (·.marksCircuitBreaker) with
    | none => rfl
    | some p => exact taken _ _ integer
  | target =>
    simp only [TransitionPolicy.leaf,Merge,spoken,PartialTransitionPolicy.marks]
    cases (layers.filterMap id).find? (·.marksOnFail) <;> rfl
  | compensate =>
    simp only [TransitionPolicy.leaf,Merge,spoken,PartialTransitionPolicy.marks]
    cases (layers.filterMap id).find? (·.marksOnFail) with
    | none => rfl
    | some p => exact taken _ _ YamlScalar.flag
  | benchmark =>
    simp only [TransitionPolicy.leaf,Merge,spoken,PartialTransitionPolicy.marks]
    cases (layers.filterMap id).find? (·.benchmarkEnabled.isSome) with
    | none => rfl
    | some p => exact taken _ _ YamlScalar.flag

/-! The leaves of a document. -/

def Leaf.path : Leaf → List String
  | .maxAttempts => ["retry","maxAttempts"]
  | .strategy => ["retry","backoff","strategy"]
  | .initialDelayMs => ["retry","backoff","initialDelayMs"]
  | .maxDelayMs => ["retry","backoff","maxDelayMs"]
  | .multiplier => ["retry","backoff","multiplier"]
  | .enabled => ["circuitBreaker","enabled"]
  | .failureThreshold => ["circuitBreaker","failureThreshold"]
  | .openDurationMs => ["circuitBreaker","openDurationMs"]
  | .halfOpenMaxCalls => ["circuitBreaker","halfOpenMaxCalls"]
  | .target => ["onFail","target"]
  | .compensate => ["onFail","compensate"]
  | .compensateHandler => ["compensate"]
  | .benchmark => ["benchmark","enabled"]

def number (value : Json) : Option YamlScalar := value.asNumber.map .number
def text (value : Json) : Option YamlScalar := value.asText.map .text
def flag (value : Json) : Option YamlScalar := value.asFlag.map .flag

def Leaf.read : Leaf → Json → Option YamlScalar
  | .strategy | .target | .compensateHandler => text
  | .enabled | .compensate | .benchmark => flag
  | .maxAttempts | .initialDelayMs | .maxDelayMs | .multiplier | .failureThreshold | .openDurationMs | .halfOpenMaxCalls => number

/-- What a transition or the defaults of a document set. -/
def written (raw : Json) (l : Leaf) : Option YamlScalar := (jsAt raw l.path).bind l.read

/-- A delay loses what is behind its point. -/
def cut : YamlScalar → YamlScalar
  | .number n => integer (toInt32 n)
  | value => value

/-- A name in a document is taken from its namespace. -/
def named (ns : Option String) : YamlScalar → YamlScalar
  | .text name => .text (qualify name ns)
  | value => value

/-- What the SDK keeps of it: a breaker that is described is on. -/
def keeps (ns : Option String) (raw : Json) : Leaf → Option YamlScalar
  | .initialDelayMs => (written raw .initialDelayMs).map cut
  | .maxDelayMs => (written raw .maxDelayMs).map cut
  | .enabled => (raw.prop "circuitBreaker").map (fun _ => .flag true)
  | .compensateHandler => (written raw .compensateHandler).map (named ns)
  | l => written raw l

def marked (raw : Json) : Leaf → Bool
  | .maxAttempts | .strategy | .initialDelayMs | .maxDelayMs | .multiplier => (raw.prop "retry").isSome
  | .enabled | .failureThreshold | .openDurationMs | .halfOpenMaxCalls => (raw.prop "circuitBreaker").isSome
  | .target | .compensate => (raw.prop "onFail").isSome
  | .compensateHandler => (written raw .compensateHandler).isSome
  | .benchmark => (written raw .benchmark).isSome

/-! What is parsed. -/

theorem readSource {α : Type} {read : Json → Option α} {show_ : α → Option YamlScalar} {shown : Json → Option YamlScalar}
    (each : ∀ json value, read json = some value → show_ value = shown json) {element : Json} {name : String} {value : Option α}
    (h : readProperty read element name = some value) : value.bind show_ = (element.prop name).bind shown := by
  obtain ⟨found,here,rest⟩ := Option.bind_eq_some_iff.mp h
  cases element with
  | object entries =>
    cases Option.some.inj here
    rw [Json.propObject]
    cases there : Keyed.get entries name with
    | none =>
      rw [there] at rest
      cases Option.some.inj rest
      rfl
    | some json =>
      rw [there] at rest
      obtain ⟨inner,read_,same⟩ := Option.map_eq_some_iff.mp rest
      rw [← same]
      exact each json inner read_
  | _ => cases here

theorem readInt {element : Json} {name : String} {value : Option Int} (h : readProperty getInt32 element name = some value) :
    value.map integer = (element.prop name).bind number := by
  have each (json : Json) (n : Int) (h : getInt32 json = some n) : some (integer n) = number json := by
    cases json with
    | number m =>
      simp only [getInt32] at h
      split at h
      · rename_i fits
        cases Option.some.inj h
        have den : m.den = 1 := by simpa [Rat.isInt] using (Bool.and_eq_true_iff.mp fits).1
        have same : ((m.num : Int) : ℚ) = m := (Rat.den_eq_one_iff m).mp den
        rw [integer,same]
        rfl
      · cases h
    | _ => cases h
  rw [← readSource each h]
  cases value <;> rfl

theorem readDouble {element : Json} {name : String} {value : Option ℚ} (h : readProperty getDouble element name = some value) :
    value.map YamlScalar.number = (element.prop name).bind number := by
  have each (json : Json) (n : ℚ) (h : getDouble json = some n) : some (YamlScalar.number n) = number json := by
    cases json with
    | number m => cases Option.some.inj h; rfl
    | _ => cases h
  rw [← readSource each h]
  cases value <;> rfl

theorem readFlag {element : Json} {name : String} {value : Option Bool} (h : readProperty getBoolean element name = some value) :
    value.map YamlScalar.flag = (element.prop name).bind flag := by
  have each (json : Json) (on : Bool) (h : getBoolean json = some on) : some (YamlScalar.flag on) = flag json := by
    cases json with
    | flag value => cases Option.some.inj h; rfl
    | _ => cases h
  rw [← readSource each h]
  cases value <;> rfl

theorem readText {element : Json} {name : String} {value : Option (Option String)}
    (h : readProperty getString element name = some value) : value.join.map YamlScalar.text = (element.prop name).bind text := by
  have each (json : Json) (value : Option String) (h : getString json = some value) : value.map YamlScalar.text = text json := by
    cases json with
    | text value => cases Option.some.inj h; rfl
    | null => cases Option.some.inj h; rfl
    | _ => cases h
  rw [← readSource each h]
  cases value <;> rfl

theorem readUndeclared {α : Type} {properties : List (String × Json.Check)} {element : Json} {name : String} {read : Json → Option α}
    {value : Option α} (admitted : Json.closed properties element = true)
    (undeclared : ∀ json, Json.checkOf properties name json = false) (h : readProperty read element name = some value) : value = none := by
  have missing : element.prop name = none := by
    cases here : element.prop name with
    | none => rfl
    | some json => exact absurd (closedProp admitted here) (by rw [undeclared]; exact Bool.false_ne_true)
  have source : value.bind (fun _ => some YamlScalar.null) = (element.prop name).bind (fun _ => some .null) :=
    readSource (fun _ _ _ => rfl) h
  rw [missing] at source
  cases value with
  | none => rfl
  | some value => cases source

/-- The waits that are read of a backoff. -/
structure WaitsSource (bo : Option Json) (waits : Waits) : Prop where
  strategy : waits.strategy.map YamlScalar.text = bo.bind (fun bo => (bo.prop "strategy").bind text)
  initialDelayMs : waits.initialDelayMs.map integer = (bo.bind (fun bo => (bo.prop "initialDelayMs").bind number)).map cut
  maxDelayMs : waits.maxDelayMs.map integer = (bo.bind (fun bo => (bo.prop "maxDelayMs").bind number)).map cut
  multiplier : waits.multiplier.map YamlScalar.number = bo.bind (fun bo => (bo.prop "multiplier").bind number)

theorem waitsSource {bo : Json} {waits : Waits} (admitted : Complete.BackoffConfigSchema bo = true) (h : parseBackoff bo = some waits) :
    WaitsSource (some bo) waits := by
  cases bo with
  | object entries =>
    simp only [parseBackoff,bind,Option.bind_eq_some_iff] at h
    obtain ⟨strategy,readStrategy,initialDelayMs,readInitial,maxDelayMs,readMax,multiplier,readMultiplier,last⟩ := h
    cases Option.some.inj last
    have delay (value : Option ℚ) : (value.map toInt32).map integer = (value.map YamlScalar.number).map cut := by
      cases value <;> rfl
    exact {
      strategy := readText readStrategy
      initialDelayMs := by rw [delay,readDouble readInitial]; rfl
      maxDelayMs := by rw [delay,readDouble readMax]; rfl
      multiplier := readDouble readMultiplier }
  | _ => cases admitted

theorem retrySource {retryProp : Json} {before after : PartialTransitionPolicy} (admitted : Complete.RetryConfigSchema retryProp = true)
    (h : parseRetry before retryProp = some after) : ∃ retryMaxAttempts waits, WaitsSource (retryProp.prop "backoff") waits ∧
      retryMaxAttempts.map integer = (retryProp.prop "maxAttempts").bind number ∧
      after = { before with
        retryExplicitlyDefined := some true, retryMaxAttempts, retryJitter := none, retryBackoff := waits.strategy
        retryBackoffMs := waits.initialDelayMs, retryBackoffFactor := waits.multiplier, retryMaxBackoffMs := waits.maxDelayMs } := by
  cases retryProp with
  | object entries =>
    simp only [parseRetry,bind,Option.bind_eq_some_iff] at h
    obtain ⟨attempts,readAttempts,backoffMs,readMs,backoffFactor,readFactor,maxBackoffMs,readMax,backoff,readBackoff,jitter,readJitter,last⟩ := h
    cases readUndeclared admitted (fun _ => rfl) readMs
    cases readUndeclared admitted (fun _ => rfl) readFactor
    cases readUndeclared admitted (fun _ => rfl) readMax
    cases readUndeclared admitted (fun _ => rfl) readJitter
    cases Option.some.inj last
    refine ⟨attempts,backoff.getD {},?_,readInt readAttempts,by simp only [Option.or_none]⟩
    obtain ⟨found,here,rest⟩ := Option.bind_eq_some_iff.mp readBackoff
    cases Option.some.inj here
    rw [Json.propObject]
    cases there : Keyed.get entries "backoff" with
    | none =>
      rw [there] at rest
      cases Option.some.inj rest
      exact ⟨rfl,rfl,rfl,rfl⟩
    | some bo =>
      rw [there] at rest
      obtain ⟨waits,parsed,same⟩ := Option.map_eq_some_iff.mp rest
      rw [← same]
      exact waitsSource (closedProp admitted there) parsed
  | _ => cases admitted

theorem circuitBreakerSource {cbProp : Json} {before after : PartialTransitionPolicy}
    (admitted : Complete.CircuitBreakerConfigSchema cbProp = true) (h : parseCircuitBreaker before cbProp = some after) :
    ∃ failureThreshold openDurationMs halfOpenMaxCalls,
      failureThreshold.map integer = (cbProp.prop "failureThreshold").bind number ∧
      openDurationMs.map integer = (cbProp.prop "openDurationMs").bind number ∧
      halfOpenMaxCalls.map integer = (cbProp.prop "halfOpenMaxCalls").bind number ∧
      after = { before with
        cbExplicitlyDefined := some true, cbFailureThreshold := failureThreshold, cbRecoveryTimeoutMs := openDurationMs
        cbHalfOpenSuccessThreshold := halfOpenMaxCalls } := by
  simp only [parseCircuitBreaker,bind,Option.bind_eq_some_iff] at h
  obtain ⟨threshold,readThreshold,recovery,readRecovery,duration,readDuration,successes,readSuccesses,calls,readCalls,last⟩ := h
  cases readUndeclared admitted (fun _ => rfl) readRecovery
  cases readUndeclared admitted (fun _ => rfl) readSuccesses
  cases Option.some.inj last
  exact ⟨threshold,duration,calls,readInt readThreshold,readInt readDuration,readInt readCalls,by simp only [Option.or_none]⟩

theorem onFailSource {onFailProp : Json} {before after : PartialTransitionPolicy} (h : parseOnFail before onFailProp = some after) :
    ∃ target compensate, target.map YamlScalar.text = (onFailProp.prop "target").bind text ∧
      compensate.map YamlScalar.flag = (onFailProp.prop "compensate").bind flag ∧
      after = { before with onFailExplicitlyDefined := some true, onFailTarget := target, onFailCompensate := compensate } := by
  simp only [parseOnFail,bind,Option.bind_eq_some_iff] at h
  obtain ⟨target,readTarget,compensate,readCompensate,last⟩ := h
  cases Option.some.inj last
  exact ⟨target.join,compensate,readText readTarget,readFlag readCompensate,rfl⟩

theorem benchmarkSource {benchProp : Json} {before after : PartialTransitionPolicy} (h : parseBenchmark before benchProp = some after) :
    ∃ enabled warn, enabled.map YamlScalar.flag = (benchProp.prop "enabled").bind flag ∧
      after = { before with benchmarkEnabled := enabled, benchmarkWarnThresholdMs := warn } := by
  simp only [parseBenchmark,bind,Option.bind_eq_some_iff] at h
  obtain ⟨enabled,readEnabled,warn,_,last⟩ := h
  cases Option.some.inj last
  exact ⟨enabled,warn,readFlag readEnabled,rfl⟩

theorem compensationSource {properties : List (String × Json.Check)} {element : Json} {ns : Option String} {name : Option String}
    (admitted : Json.closed properties element = true) (undeclared : ∀ json, Json.checkOf properties "compensateWith" json = false)
    (h : parseCompensation element ns = some name) :
    name.map YamlScalar.text = ((element.prop "compensate").bind text).map (Layering.named ns) := by
  simp only [parseCompensation,bind,Option.bind_eq_some_iff] at h
  obtain ⟨compensateWith,readWith,rest⟩ := h
  cases readUndeclared admitted undeclared readWith
  obtain ⟨compensate,readCompensate,last⟩ := Option.bind_eq_some_iff.mp rest
  cases Option.some.inj last
  rw [← readText readCompensate]
  cases compensate.join <;> rfl

theorem sectionSource {read : PartialTransitionPolicy → Json → Option PartialTransitionPolicy} {element : Json} {name : String}
    {before after : PartialTransitionPolicy} (h : parseSection read element name before = some after) :
    element.prop name = none ∧ after = before ∨ ∃ value, element.prop name = some value ∧ read before value = some after := by
  obtain ⟨found,here,rest⟩ := Option.bind_eq_some_iff.mp h
  cases element with
  | object entries =>
    cases Option.some.inj here
    rw [Json.propObject]
    cases there : Keyed.get entries name with
    | none =>
      rw [there] at rest
      exact .inl ⟨rfl,(Option.some.inj rest).symm⟩
    | some value =>
      rw [there] at rest
      exact .inr ⟨value,rfl,rest⟩
  | _ => cases here

inductive Part where
  | retry | circuitBreaker | onFail | compensate | benchmark
  deriving DecidableEq

def Leaf.part : Leaf → Part
  | .maxAttempts | .strategy | .initialDelayMs | .maxDelayMs | .multiplier => .retry
  | .enabled | .failureThreshold | .openDurationMs | .halfOpenMaxCalls => .circuitBreaker
  | .target | .compensate => .onFail
  | .compensateHandler => .compensate
  | .benchmark => .benchmark

/-- A policy into which some parts of a document have been read. -/
structure Parsed (ns : Option String) (raw : Json) (parts : List Part) (policy : PartialTransitionPolicy) : Prop where
  leaf : ∀ l, policy.leaf l = if l.part ∈ parts then keeps ns raw l else none
  marks : ∀ l, policy.marks l = (decide (l.part ∈ parts) && marked raw l)

section
variable {ns : Option String} {raw : Json} {parts : List Part} {before after : PartialTransitionPolicy}

theorem parsedNothing : Parsed ns raw [] {} where
  leaf := by intro l; cases l <;> rfl
  marks := by intro l; cases l <;> rfl

theorem Parsed.step (done : Parsed ns raw parts before) (part : Part)
    (mine : ∀ l, l.part = part → after.leaf l = keeps ns raw l ∧ after.marks l = marked raw l)
    (others : ∀ l, l.part ≠ part → after.leaf l = before.leaf l ∧ after.marks l = before.marks l) :
    Parsed ns raw (part::parts) after := by
  constructor
  · intro l
    by_cases same : l.part = part
    · rw [(mine l same).1,if_pos (by simp [same])]
    · rw [(others l same).1,done.leaf]
      simp [same]
  · intro l
    by_cases same : l.part = part
    · rw [(mine l same).2]
      simp [same]
    · rw [(others l same).2,done.marks]
      simp [same]

theorem Parsed.skip (done : Parsed ns raw parts before) {part : Part} (fresh : part ∉ parts)
    (missing : ∀ l, l.part = part → keeps ns raw l = none ∧ marked raw l = false) : Parsed ns raw (part::parts) before := by
  refine done.step part (fun l same => ?_) (fun _ _ => ⟨rfl,rfl⟩)
  obtain ⟨nothing,unmarked⟩ := missing l same
  rw [done.leaf,done.marks,nothing,unmarked,same]
  simp [fresh]

theorem parsedRetry (done : Parsed ns raw parts before) (fresh : Part.retry ∉ parts)
    (admitted : ∀ value, raw.prop "retry" = some value → Complete.RetryConfigSchema value = true)
    (lowered : ∀ name, written raw .strategy = some (.text name) → lower name = name)
    (h : parseSection parseRetry raw "retry" before = some after) : Parsed ns raw (.retry::parts) after := by
  rcases sectionSource h with ⟨missing,rfl⟩ | ⟨retryProp,here,parsed⟩
  · refine done.skip fresh (fun l same => ?_)
    cases l <;> first | (cases same; done) | simp [keeps,marked,written,Leaf.path,jsAt,missing]
  · obtain ⟨attempts,waits,source,readAttempts,rfl⟩ := retrySource (admitted retryProp here) parsed
    have backoff (name : String) (read : Json → Option YamlScalar) : (jsAt raw ["retry","backoff",name]).bind read =
        (retryProp.prop "backoff").bind (fun bo => (bo.prop name).bind read) := by
      simp only [jsAt,here,Option.bind_some]
      cases retryProp.prop "backoff" with
      | none => rfl
      | some bo =>
        change ((bo.prop name).bind some).bind read = (bo.prop name).bind read
        rw [Option.bind_fun_some]
    refine done.step .retry (fun l same => ⟨?_,?_⟩) (fun l other => ?_)
    · cases l with
      | maxAttempts =>
        refine readAttempts.trans ?_
        simp only [keeps,written,Leaf.path,jsAt,here,Option.bind_some]
        cases retryProp.prop "maxAttempts" <;> rfl
      | strategy =>
        have same : waits.strategy.map YamlScalar.text = written raw .strategy := by
          rw [written,Leaf.path,backoff]
          exact source.strategy
        change waits.strategy.map (fun name => YamlScalar.text (lower name)) = written raw .strategy
        rw [← same]
        cases named : waits.strategy with
        | none => rfl
        | some name =>
          rw [named] at same
          exact congrArg (fun name => some (YamlScalar.text name)) (lowered name same.symm)
      | initialDelayMs => rw [keeps,written,Leaf.path,backoff]; exact source.initialDelayMs
      | maxDelayMs => rw [keeps,written,Leaf.path,backoff]; exact source.maxDelayMs
      | multiplier =>
        refine source.multiplier.trans ?_
        change _ = written raw .multiplier
        rw [written,Leaf.path,backoff]
        rfl
      | _ => cases same
    · cases l <;> first | (cases same; done) | simp [PartialTransitionPolicy.marks,PartialTransitionPolicy.marksRetry,marked,here]
    · cases l <;> first | exact absurd rfl other | exact ⟨rfl,rfl⟩

theorem writtenIn {name key : String} {value : Json} (here : raw.prop name = some value) (read : Json → Option YamlScalar) :
    (jsAt raw [name,key]).bind read = (value.prop key).bind read := by
  simp only [jsAt,here,Option.bind_some,Option.bind_fun_some]

theorem parsedCircuitBreaker (done : Parsed ns raw parts before) (fresh : Part.circuitBreaker ∉ parts)
    (admitted : ∀ value, raw.prop "circuitBreaker" = some value → Complete.CircuitBreakerConfigSchema value = true)
    (h : parseSection parseCircuitBreaker raw "circuitBreaker" before = some after) : Parsed ns raw (.circuitBreaker::parts) after := by
  rcases sectionSource h with ⟨missing,rfl⟩ | ⟨cbProp,here,parsed⟩
  · refine done.skip fresh (fun l same => ?_)
    cases l <;> first | (cases same; done) | simp [keeps,marked,written,Leaf.path,jsAt,missing]
  · obtain ⟨threshold,duration,calls,readThreshold,readDuration,readCalls,rfl⟩ := circuitBreakerSource (admitted cbProp here) parsed
    refine done.step .circuitBreaker (fun l same => ⟨?_,?_⟩) (fun l other => ?_)
    · cases l with
      | enabled => simp [PartialTransitionPolicy.leaf,PartialTransitionPolicy.marksCircuitBreaker,keeps,here]
      | failureThreshold => exact readThreshold.trans (writtenIn here number).symm
      | openDurationMs => exact readDuration.trans (writtenIn here number).symm
      | halfOpenMaxCalls => exact readCalls.trans (writtenIn here number).symm
      | _ => cases same
    · cases l <;> first | (cases same; done) | simp [PartialTransitionPolicy.marks,PartialTransitionPolicy.marksCircuitBreaker,marked,here]
    · cases l <;> first | exact absurd rfl other | exact ⟨rfl,rfl⟩

theorem parsedOnFail (done : Parsed ns raw parts before) (fresh : Part.onFail ∉ parts)
    (h : parseSection parseOnFail raw "onFail" before = some after) : Parsed ns raw (.onFail::parts) after := by
  rcases sectionSource h with ⟨missing,rfl⟩ | ⟨onFailProp,here,parsed⟩
  · refine done.skip fresh (fun l same => ?_)
    cases l <;> first | (cases same; done) | simp [keeps,marked,written,Leaf.path,jsAt,missing]
  · obtain ⟨target,compensate,readTarget,readCompensate,rfl⟩ := onFailSource parsed
    refine done.step .onFail (fun l same => ⟨?_,?_⟩) (fun l other => ?_)
    · cases l with
      | target => exact readTarget.trans (writtenIn here text).symm
      | compensate => exact readCompensate.trans (writtenIn here flag).symm
      | _ => cases same
    · cases l <;> first | (cases same; done) | simp [PartialTransitionPolicy.marks,PartialTransitionPolicy.marksOnFail,marked,here]
    · cases l <;> first | exact absurd rfl other | exact ⟨rfl,rfl⟩

theorem parsedCompensation {properties : List (String × Json.Check)} (done : Parsed ns raw parts before)
    (admitted : Json.closed properties raw = true) (undeclared : ∀ json, Json.checkOf properties "compensateWith" json = false)
    {compensateWith : Option String} (h : parseCompensation raw ns = some compensateWith) :
    Parsed ns raw (.compensate::parts) { before with compensateWith } := by
  have source := compensationSource admitted undeclared h
  have here : written raw .compensateHandler = (raw.prop "compensate").bind text := by
    rw [written,Leaf.path,jsAt]
    cases raw.prop "compensate" <;> rfl
  rw [← here] at source
  refine done.step .compensate (fun l same => ⟨?_,?_⟩) (fun l other => ?_)
  · cases l with
    | compensateHandler => exact source
    | _ => cases same
  · cases l with
    | compensateHandler =>
      have isSome := congrArg Option.isSome source
      rw [Option.isSome_map,Option.isSome_map] at isSome
      exact isSome
    | _ => cases same
  · cases l <;> first | exact absurd rfl other | exact ⟨rfl,rfl⟩

theorem parsedBenchmark (done : Parsed ns raw parts before) (fresh : Part.benchmark ∉ parts)
    (h : parseSection parseBenchmark raw "benchmark" before = some after) : Parsed ns raw (.benchmark::parts) after := by
  rcases sectionSource h with ⟨missing,rfl⟩ | ⟨benchProp,here,parsed⟩
  · refine done.skip fresh (fun l same => ?_)
    cases l <;> first | (cases same; done) | simp [keeps,marked,written,Leaf.path,jsAt,missing]
  · obtain ⟨enabled,warn,readEnabled,rfl⟩ := benchmarkSource parsed
    have same : enabled.map YamlScalar.flag = written raw .benchmark := readEnabled.trans (writtenIn here flag).symm
    refine done.step .benchmark (fun l mine => ⟨?_,?_⟩) (fun l other => ?_)
    · cases l with
      | benchmark => exact same
      | _ => cases mine
    · cases l with
      | benchmark =>
        have isSome := congrArg Option.isSome same
        rw [Option.isSome_map] at isSome
        exact isSome
      | _ => cases mine
    · cases l <;> first | exact absurd rfl other | exact ⟨rfl,rfl⟩

end

theorem parsedPolicy {properties : List (String × Json.Check)} (declared : ∀ e ∈ Complete.sectionSchemas, Json.checkOf properties e.1 = e.2)
    (undeclared : ∀ json, Json.checkOf properties "compensateWith" json = false) {raw : Json}
    (admitted : Json.closed properties raw = true) {ns : Option String} {policy : PartialTransitionPolicy}
    (h : ParsePartialPolicy raw ns = some policy) (l : Leaf) : policy.leaf l = keeps ns raw l ∧ policy.marks l = marked raw l := by
  simp only [ParsePartialPolicy,bind,Option.bind_eq_some_iff] at h
  obtain ⟨first,readRetry,second,readBreaker,third,readOnFail,compensateWith,readCompensation,readBenchmark⟩ := h
  have sections := declared
  simp only [Complete.sectionSchemas,List.forall_mem_cons] at sections
  obtain ⟨retry,circuitBreaker,_⟩ := sections
  have lowered (name : String) (here : written raw .strategy = some (.text name)) : lower name = name := by
    obtain ⟨value,found,shown⟩ := Option.bind_eq_some_iff.mp here
    have among := leafChecked declared admitted .strategy found
    cases value with
    | text strategy =>
      cases shown
      simp only [Extension.Leaf.check,Json.among,List.contains_eq_mem,List.mem_cons,List.not_mem_nil,or_false,decide_eq_true_eq] at among
      rcases among with rfl | rfl | rfl | rfl <;> decide +kernel
    | _ => cases among
  have done := parsedRetry (@parsedNothing ns raw) (by decide) (fun value here => by rw [← retry]; exact closedProp admitted here) lowered readRetry
  have done := parsedCircuitBreaker done (by decide) (fun value here => by rw [← circuitBreaker]; exact closedProp admitted here) readBreaker
  have done := parsedOnFail done (by decide) readOnFail
  have done := parsedCompensation done admitted undeclared readCompensation
  have done := parsedBenchmark done (by decide) readBenchmark
  have all : l.part ∈ [Part.benchmark,.compensate,.onFail,.circuitBreaker,.retry] := by cases l <;> decide
  rw [done.leaf,done.marks,if_pos all,decide_eq_true all]
  exact ⟨rfl,rfl⟩

/-! A transition with all that is said about it. -/

structure Written where
  ns : Option String := none
  edge : Json
  defaults : Option Json := none
  codePolicy : Option PartialTransitionPolicy := none
  globalPolicy : Option PartialTransitionPolicy := none

inductive Layer where
  | code (policy : PartialTransitionPolicy)
  | document (raw : Json)

namespace Layer

/-- What a layer sets, what is kept of it, and whether it marks the section of a leaf. -/
def tells (l : Leaf) : Layer → Option YamlScalar
  | code policy => policy.leaf l
  | document raw => written raw l

def kept (ns : Option String) (l : Leaf) : Layer → Option YamlScalar
  | code policy => policy.leaf l
  | document raw => keeps ns raw l

def marks (l : Leaf) : Layer → Bool
  | code policy => policy.marks l
  | document raw => marked raw l

end Layer

namespace Written
variable (w : Written)

/-- What the two SDKs' schemas ask of it. -/
structure Admitted : Prop where
  edge : Complete.TransitionDefinitionSchema w.edge = true
  defaults : ∀ raw, w.defaults = some raw → Complete.TransitionPolicySchema raw = true

/-- The policy of the step, where nothing throws. -/
def policy : Option TransitionPolicy := do
  let transitionYaml ← parseEdgePolicy w.edge w.ns
  let defaultsYaml ← w.defaults.elim (some none) (fun raw => (ParsePartialPolicy raw w.ns).map some)
  some (Merge [w.codePolicy,transitionYaml,defaultsYaml,w.globalPolicy])

/-- The highest layer first. -/
def layers : List Layer :=
  (w.codePolicy.map .code).toList ++ .document w.edge::((w.defaults.map .document).toList ++ (w.globalPolicy.map .code).toList)

end Written

section
variable {w : Written}

theorem edgeShape {raw : Json} (admitted : Complete.TransitionDefinitionSchema raw = true) : (∃ target, raw = .text target) ∨
    raw.asText = none ∧ Json.closed ([("target",Json.isFilled),("transition",Json.isFilled),("compensate",Json.isFilled),
      ("effects",Json.listOf 0 Json.isFilled),("description",Json.isText)] ++ Complete.sectionSchemas) raw = true := by
  rw [Complete.TransitionDefinitionSchema,Json.oneOfTwo] at admitted
  cases raw with
  | text target => exact .inl ⟨target,rfl⟩
  | object entries =>
    have noText : Json.isFilled (.object entries) = false := rfl
    rw [noText,Bool.false_xor] at admitted
    exact .inr ⟨rfl,admitted⟩
  | _ => cases admitted

theorem edgeDeclared : ∀ e ∈ Complete.sectionSchemas, Json.checkOf ([("target",Json.isFilled),("transition",Json.isFilled),
    ("compensate",Json.isFilled),("effects",Json.listOf 0 Json.isFilled),("description",Json.isText)] ++ Complete.sectionSchemas) e.1 = e.2 := by
  simp [Complete.sectionSchemas]

theorem defaultsDeclared : ∀ e ∈ Complete.sectionSchemas, Json.checkOf Complete.sectionSchemas e.1 = e.2 := by
  simp [Complete.sectionSchemas]

theorem policyLeaf (admitted : w.Admitted) {policy : TransitionPolicy} (parsed : w.policy = some policy) (l : Leaf) :
    policy.leaf l = spoken (Layer.marks l) (Layer.kept w.ns l) (own l) (absent l) w.layers := by
  obtain ⟨transitionYaml,readEdge,rest⟩ := Option.bind_eq_some_iff.mp parsed
  obtain ⟨defaultsYaml,readDefaults,last⟩ := Option.bind_eq_some_iff.mp rest
  cases Option.some.inj last
  have code (policy : Option PartialTransitionPolicy) : policy.toList.map (fun p => (p.marks l,p.leaf l)) =
      (policy.map Layer.code).toList.map (fun layer => (layer.marks l,layer.kept w.ns l)) := by
    cases policy <;> rfl
  have defaults : defaultsYaml.toList.map (fun p => (p.marks l,p.leaf l)) =
      (w.defaults.map Layer.document).toList.map (fun layer => (layer.marks l,layer.kept w.ns l)) := by
    cases here : w.defaults with
    | none =>
      rw [here] at readDefaults
      cases Option.some.inj readDefaults
      rfl
    | some raw =>
      rw [here] at readDefaults
      obtain ⟨p,parsed,same⟩ := Option.map_eq_some_iff.mp readDefaults
      obtain ⟨leaf,marks⟩ := parsedPolicy defaultsDeclared (fun _ => rfl) (admitted.defaults raw here) parsed l
      rw [← same]
      simp only [Option.toList_some,Option.map_some,List.map_cons,List.map_nil,leaf,marks,Layer.marks,Layer.kept]
  have listed : [w.codePolicy,transitionYaml,defaultsYaml,w.globalPolicy].filterMap id =
      w.codePolicy.toList ++ (transitionYaml.toList ++ (defaultsYaml.toList ++ w.globalPolicy.toList)) := by
    cases w.codePolicy <;> cases transitionYaml <;> cases defaultsYaml <;> cases w.globalPolicy <;> rfl
  rw [mergeLeaf,listed,Written.layers]
  rcases edgeShape admitted.edge with ⟨target,shorthand⟩ | ⟨plain,closed⟩
  · rw [shorthand] at readEdge ⊢
    cases Option.some.inj readEdge
    have unmarked : Layer.marks l (.document (.text target)) = false := by cases l <;> rfl
    rw [spokenPassed unmarked,spokenPairs,spokenPairs (Layer.marks l)]
    simp only [List.map_append,code w.codePolicy,code w.globalPolicy,defaults,Option.toList_none,List.nil_append]
  · have edge : transitionYaml.toList.map (fun p => (p.marks l,p.leaf l)) = [(Layer.marks l (.document w.edge),Layer.kept w.ns l (.document w.edge))] := by
      have readEdge : (ParsePartialPolicy w.edge w.ns).map some = some transitionYaml := by
        rw [← readEdge,parseEdgePolicy]
        intro target same
        rw [same] at plain
        cases plain
      obtain ⟨p,parsed,same⟩ := Option.map_eq_some_iff.mp readEdge
      obtain ⟨leaf,marks⟩ := parsedPolicy edgeDeclared (fun _ => rfl) closed parsed l
      rw [← same]
      simp only [Option.toList_some,List.map_cons,List.map_nil,leaf,marks,Layer.marks,Layer.kept]
    rw [spokenPairs,spokenPairs (Layer.marks l)]
    simp only [List.map_append,List.map_cons,code w.codePolicy,code w.globalPolicy,defaults,edge,List.singleton_append]

end

/-! The TypeScript SDK. -/

section
variable {E : Type}

def Leaf.runtime : Leaf → Policy.Leaf
  | .maxAttempts => .maxAttempts
  | .strategy => .strategy
  | .initialDelayMs => .initialDelayMs
  | .maxDelayMs => .maxDelayMs
  | .multiplier => .multiplier
  | .enabled => .enabled
  | .failureThreshold => .failureThreshold
  | .openDurationMs => .openDurationMs
  | .halfOpenMaxCalls => .halfOpenMaxCalls
  | .target => .target
  | .compensate => .compensate
  | .compensateHandler => .compensateHandler
  | .benchmark => .benchmark

def Leaf.shown : (l : Leaf) → l.runtime.Value E → YamlScalar
  | .maxAttempts => fun (n : Nat) => .number n
  | .strategy => fun (strategy : Policy.BackoffStrategy) => .text (Complete.strategyText strategy)
  | .initialDelayMs => fun (ms : ℚ) => .number ms
  | .maxDelayMs => fun (ms : ℚ) => .number ms
  | .multiplier => fun (factor : ℚ) => .number factor
  | .enabled => fun (on : Bool) => .flag on
  | .failureThreshold => fun (n : Nat) => .number n
  | .openDurationMs => fun (ms : Int) => .number ms
  | .halfOpenMaxCalls => fun (n : Nat) => .number n
  | .target => fun (name : String) => .text name
  | .compensate => fun (on : Bool) => .flag on
  | .compensateHandler => fun (name : String) => .text name
  | .benchmark => fun (on : Bool) => .flag on

theorem extractedWritten {properties : List (String × Json.Check)} (declared : ∀ e ∈ Complete.sectionSchemas, Json.checkOf properties e.1 = e.2)
    {raw : Json} (admitted : Json.closed properties raw = true) (l : Leaf) :
    ((runtimePolicy (E := E) (Complete.extractPolicy raw)).leaf l.runtime).map l.shown = written raw l := by
  have whole := extractedWhole declared admitted
  have shared (l : Extension.Leaf) := (runtimeLeaf (E := E) whole l).trans (extractedLeaf raw l)
  cases l with
  | strategy =>
    refine (shared .strategy).trans ?_
    rw [written]
    change (jsAt raw ["retry","backoff","strategy"]).bind _ = (jsAt raw ["retry","backoff","strategy"]).bind _
    cases found : jsAt raw ["retry","backoff","strategy"] with
    | none => rfl
    | some value =>
      have among := leafChecked declared admitted .strategy found
      cases value with
      | text name =>
        simp only [Extension.Leaf.check,Json.among,List.contains_eq_mem,List.mem_cons,List.not_mem_nil,or_false,decide_eq_true_eq] at among
        rcases among with rfl | rfl | rfl | rfl <;> rfl
      | _ => cases among
  | compensateHandler =>
    change ((((raw.prop "compensate").bind Json.asText).map some).join).map YamlScalar.text = _
    rw [written,Leaf.path,jsAt]
    cases raw.prop "compensate" with
    | none => rfl
    | some value => cases value <;> rfl
  | maxAttempts => exact shared .maxAttempts
  | initialDelayMs => exact shared .initialDelayMs
  | maxDelayMs => exact shared .maxDelayMs
  | multiplier => exact shared .multiplier
  | enabled => exact shared .enabled
  | failureThreshold => exact shared .failureThreshold
  | openDurationMs => exact shared .openDurationMs
  | halfOpenMaxCalls => exact shared .halfOpenMaxCalls
  | target => exact shared .target
  | compensate => exact shared .compensate
  | benchmark => exact shared .benchmark

/-- Layers in code that set the leaves alike. -/
def Corresponds (csharp : Option PartialTransitionPolicy) (typescript : Option (Policy.PartialTransitionPolicy E)) : Prop :=
  ∀ l : Leaf, csharp.bind (·.leaf l) = (typescript.bind (·.leaf l.runtime)).map l.shown

/-- What the TypeScript SDK normalizes for the same document, and layers in code. -/
def Written.inputs (w : Written) (defaultBreakerKey event : String) (code global : Option (Policy.PartialTransitionPolicy E)) :
    Policy.PolicyMergeInputs E where
  defaultBreakerKey
  globalDefaults := global
  machineDefaults := some (runtimePolicy (w.defaults.elim {} Complete.extractPolicy))
  transitionPolicy := some (runtimePolicy (Complete.parseTransitionEdge event w.edge).policy)
  decoratorPolicy := code

end

/-- What is asked of the policy of a transition: each leaf as the highest layer sets it that sets
it, else as specified, and the same in the TypeScript SDK. -/
structure LeafByLeaf (w : Written) (policy : TransitionPolicy) : Prop where
  leaves : ∀ l, policy.leaf l = (w.layers.findSome? (·.tells l)).getD (specified l)
  typescript : ∀ {E : Type} (defaultBreakerKey event : String) (code global : Option (Policy.PartialTransitionPolicy E)),
    Corresponds w.codePolicy code → Corresponds w.globalPolicy global →
    ∀ l : Leaf, policy.leaf l =
      (((Policy.normalizeTransitionPolicy (w.inputs defaultBreakerKey event code global)).leaf l.runtime).map l.shown).getD .null

theorem specifiedShown {E : Type} (key : String) (l : Leaf) :
    (((@Policy.SDK_DEFAULT_POLICY E key).leaf l.runtime).map l.shown).getD .null = specified l := by
  have shared (l : Extension.Leaf) (other : l ≠ .key) := congrArg (·.getD YamlScalar.null) (Extension.sdkDefault (E := E) key other)
  cases l with
  | maxAttempts => exact shared .maxAttempts (by decide)
  | failureThreshold => exact shared .failureThreshold (by decide)
  | openDurationMs => exact shared .openDurationMs (by decide)
  | halfOpenMaxCalls => exact shared .halfOpenMaxCalls (by decide)
  | _ => rfl

theorem typescriptLeaf {E : Type} {w : Written} (admitted : w.Admitted) (key event : String)
    {code global : Option (Policy.PartialTransitionPolicy E)} (codeAlike : Corresponds w.codePolicy code)
    (globalAlike : Corresponds w.globalPolicy global) (l : Leaf) :
    (((Policy.normalizeTransitionPolicy (w.inputs key event code global)).leaf l.runtime).map l.shown).getD .null =
      (w.layers.findSome? (·.tells l)).getD (specified l) := by
  have edge : ((runtimePolicy (E := E) (Complete.parseTransitionEdge event w.edge).policy).leaf l.runtime).map l.shown = written w.edge l := by
    rcases edgeShape admitted.edge with ⟨target,shorthand⟩ | ⟨plain,closed⟩
    · rw [shorthand]
      cases l <;> rfl
    · rw [Complete.parseTransitionEdge,plain]
      exact extractedWritten edgeDeclared closed l
  have defaults : ((runtimePolicy (E := E) (w.defaults.elim {} Complete.extractPolicy)).leaf l.runtime).map l.shown =
      (w.defaults.map Layer.document).bind (·.tells l) := by
    cases here : w.defaults with
    | none => cases l <;> rfl
    | some raw => exact extractedWritten defaultsDeclared (admitted.defaults raw here) l
  have codeTells (policy : Option PartialTransitionPolicy) : (policy.map Layer.code).bind (·.tells l) = policy.bind (·.leaf l) := by
    cases policy <;> rfl
  have told : w.layers.findSome? (·.tells l) = ((w.codePolicy.map Layer.code).bind (·.tells l)).or
      ((written w.edge l).or (((w.defaults.map Layer.document).bind (·.tells l)).or ((w.globalPolicy.map Layer.code).bind (·.tells l)))) := by
    have one (layer : Option Layer) : layer.toList.findSome? (·.tells l) = layer.bind (·.tells l) := by
      cases layer with
      | none => rfl
      | some layer => simp
    rw [Written.layers,List.findSome?_append,one]
    congr 1
    rw [List.findSome?_cons]
    have tells : Layer.tells l (.document w.edge) = written w.edge l := rfl
    rw [tells]
    cases written w.edge l with
    | none => simp only [Option.none_or,List.findSome?_append,one]
    | some value => rfl
  rw [told,codeTells,codeTells,codeAlike l,globalAlike l,← edge,← defaults,Go.Layering.normalizedShared,← specifiedShown (E := E) key l]
  simp only [Written.inputs,List.findSome?_cons,List.findSome?_nil,Option.bind_some]
  cases code.bind (·.leaf l.runtime) with
  | some value => rfl
  | none =>
    cases (runtimePolicy (E := E) (Complete.parseTransitionEdge event w.edge).policy).leaf l.runtime with
    | some value => rfl
    | none =>
      cases (runtimePolicy (E := E) (w.defaults.elim {} Complete.extractPolicy)).leaf l.runtime with
      | some value => rfl
      | none => cases global.bind (·.leaf l.runtime) <;> rfl

/-- The policy is leaf by leaf exactly where, leaf by leaf, the layer that speaks for the section
keeps what it says, and where it is silent its own default is what is said below it. -/
theorem csharpLeafByLeaf {w : Written} (admitted : w.Admitted) {policy : TransitionPolicy} (parsed : w.policy = some policy) :
    LeafByLeaf w policy ↔
      ∀ l, Told (Layer.marks l) (Layer.kept w.ns l) (Layer.tells l) (own l) (absent l) (specified l) w.layers := by
  constructor
  · intro layered l
    refine (toldIff _ _ _ _ _ _ _).mp ?_
    rw [← policyLeaf admitted parsed]
    exact layered.leaves l
  · intro told
    have leaves (l : Leaf) : policy.leaf l = (w.layers.findSome? (·.tells l)).getD (specified l) := by
      rw [policyLeaf admitted parsed]
      exact (toldIff _ _ _ _ _ _ _).mpr (told l)
    exact { leaves, typescript := fun key event _ _ code global l => (leaves l).trans (typescriptLeaf admitted key event code global l).symm }

/-- A transition that says how long its retries wait at most. -/
def patient : Written where
  ns := some "shop"
  edge := .object [("target",.text "paid"),("compensate",.text "stock.release"),
    ("retry",.object [("maxAttempts",.number 3),("backoff",.object [("maxDelayMs",.number 5000)])])]
  defaults := some (.object [("benchmark",.object [("enabled",.flag false)])])

theorem csharpLeafByLeafPatient : ∃ policy, patient.policy = some policy ∧ LeafByLeaf patient policy := by
  have admitted : patient.Admitted := ⟨by decide,fun raw here => by cases here; decide⟩
  cases parsed : patient.policy with
  | none => cases parsed
  | some policy => exact ⟨policy,rfl,(csharpLeafByLeaf admitted parsed).mpr (fun l => by cases l <;> exact rfl)⟩

/-- A transition whose breaker is switched off. -/
def switchedOff : Written where
  edge := .object [("target",.text "paid"),("circuitBreaker",.object [("enabled",.flag false)])]

theorem csharpLeafByLeafSwitchedOff :
    ¬ ∀ (w : Written) (policy : TransitionPolicy), w.Admitted → w.policy = some policy → LeafByLeaf w policy := by
  intro claim
  have admitted : switchedOff.Admitted := ⟨by decide,fun _ here => by cases here⟩
  cases parsed : switchedOff.policy with
  | none => cases parsed
  | some policy =>
    have enforced := (claim switchedOff policy admitted parsed).leaves .enabled
    cases Option.some.inj parsed
    exact absurd enforced (by decide)

end Dfsm.Csharp.Layering
