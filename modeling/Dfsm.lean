import Dfsm.Engine.Completion
import Dfsm.Engine.Settled
import Dfsm.Engine.Soundness
import Dfsm.Policy.CircuitBreaker
import Dfsm.Runtime.Abandoned
import Dfsm.Runtime.Phases
import Dfsm.Runtime.Fencing
import Dfsm.Runtime.Leasing
import Dfsm.Runtime.Terminal
import Dfsm.Runtime.Saga
import Dfsm.Runtime.Reentry
import Dfsm.Runtime.Rejection
import Dfsm.Runtime.CleanUp
import Dfsm.Runtime.Batches
import Dfsm.Stores.Agreement
import Dfsm.Go.Saga
import Dfsm.Go.Targets
import Dfsm.Rust.Effects
import Dfsm.Rust.Nesting
import Dfsm.Rust.Honest
import Dfsm.Java.Abandoned
import Dfsm.Java.CleanUp
import Dfsm.Java.CircuitBreaker
import Dfsm.Java.StoresAgree
import Dfsm.Csharp.Abandoned
import Dfsm.Csharp.Nesting
import Dfsm.Csharp.Honest
import Dfsm.Python.Abandoned
import Dfsm.Go.SameDocuments
import Dfsm.Engine.Exact
import Dfsm.Engine.Advertised
import Dfsm.Engine.Order
import Dfsm.Python.Nesting
import Dfsm.Policy.Tripping
import Dfsm.Policy.Layering
import Dfsm.Policy.Enforcement
import Dfsm.Runtime.Chaining
import Dfsm.Runtime.KeyOrder
import Dfsm.Runtime.Broadcast
import Dfsm.Go.Layering
import Dfsm.Definition.Complete
import Dfsm.Registry.Handlers
import Dfsm.Lib.Filed
import Dfsm.Registry.Effective
import Dfsm.Lib.Ordered
import Dfsm.Lib.Json
import Dfsm.Definition.Description
import Dfsm.Definition.Yaml
import Dfsm.Definition.Fronts
import Dfsm.Lib.Yaml
import Dfsm.Extension.Policies
import Dfsm.Policy.Retrying
import Dfsm.Lib.Rects
import Dfsm.Extension.Layout
import Dfsm.Extension.Arranged
import Dfsm.Extension.Boxes
import Dfsm.Extension.Unreachable
import Dfsm.Extension.Trails
import Dfsm.Extension.Reaching
import Dfsm.Extension.Warnings
import Dfsm.Lib.Endless
import Dfsm.Go.Tame
import Dfsm.Go.Cascade
import Dfsm.Java.Policies
import Dfsm.Java.Delays
import Dfsm.Java.Pipeline
import Dfsm.Policy.Ordinary
import Dfsm.Java.PipelinesAgree
import Dfsm.Java.Layering
import Dfsm.Csharp.Policies
import Dfsm.Csharp.Layering
import Dfsm.Python.Attempts
import Dfsm.Rust.Status
import Dfsm.Rust.Completion
import Dfsm.Rust.Cascade
import Dfsm.Go.Guarding
import Dfsm.Go.Admission
import Dfsm.Lib.Gathering
import Dfsm.Java.Registry
import Dfsm.Java.HandlerChecks
import Dfsm.Java.EffectiveConfigs
import Dfsm.Runtime.Hooks
import Dfsm.Runtime.Paths
import Dfsm.Java.InStep
