import Mathlib

/-!
# GPU discovery on a cluster with the GPU operator

`Discover` builds the inventory `node → model → (count, memory)` from the GPU product labels of the
nodes; `DiscoverUsage` adds up the GPU requests of the live, scheduled pods by the accelerator
type of their node, which `discoverNodeGPUTypes` reads from the first vendor label a node carries.

Go maps are `StrMap`s, `String → Option V`; a resource quantity is its `Value()`, an `Int`.
`discover`, `discoverNodeGPUTypes` and `discoverUsage` are the three methods on the listed nodes;
`K8sWithGpuOperator.discover` and its siblings are the methods themselves, which list the nodes
through the cluster client (`listGPUOperatorNodes`) and return `Except String`, the error's message.
`listGPUOperatorNodes` collects the nodes by name in a Go map and returns them in the map's
iteration order, which Go leaves unspecified: the model takes that order as an argument `order`,
which rearranges the map's entries.
-/

namespace InfernoAutoscaler.Discovery

/-- A Go `map[string]V`: the value at a key, `none` when the key is absent. -/
abbrev StrMap (V : Type) := String → Option V

/-- `make(map[string]V)`. -/
def StrMap.empty {V : Type} : StrMap V := fun _ => none

/-- `m[k] = v`. -/
def StrMap.insert {V : Type} (m : StrMap V) (k : String) (v : V) : StrMap V :=
  Function.update m k (some v)

/-- `vendors`: the GPU vendors, in the order the label scans try them. -/
def vendors : List String := ["nvidia.com", "amd.com", "intel.com"]

/-- The fields of a node that discovery reads. -/
structure Node where
  name : String
  labels : StrMap String
  allocatable : StrMap Int

/-- `corev1.PodPhase`. -/
inductive PodPhase
  | pending
  | running
  | succeeded
  | failed
  | unknown
  deriving DecidableEq

/-- A container's resource requests. -/
structure Container where
  requests : StrMap Int

/-- The fields of a pod that `DiscoverUsage` reads: `Spec.NodeName`, `Status.Phase`,
`Spec.Containers`, `Spec.InitContainers`. -/
structure Pod where
  nodeName : String
  phase : PodPhase
  containers : List Container
  initContainers : List Container

/-- `AcceleratorModelInfo`. -/
structure AcceleratorModelInfo where
  count : Int
  memory : String

/-! ## `Discover` -/

/-- One round of the vendor loop of `Discover` on `node`: record the model its product label
names, with the vendor's allocatable count and memory label. -/
def vendorStep (node : Node) (inv : StrMap (StrMap AcceleratorModelInfo)) (vendor : String) :
    StrMap (StrMap AcceleratorModelInfo) :=
  match node.labels (vendor ++ "/gpu.product") with
  | some model =>
    let mem := (node.labels (vendor ++ "/gpu.memory")).getD ""
    let count := (node.allocatable (vendor ++ "/gpu")).getD 0
    let inner := (inv node.name).getD StrMap.empty
    inv.insert node.name (inner.insert model ⟨count, mem⟩)
  | none => inv

/-- `Discover` on the listed nodes. -/
def discover (nodeItems : List Node) : StrMap (StrMap AcceleratorModelInfo) :=
  nodeItems.foldl (fun inv node => vendors.foldl (vendorStep node) inv) StrMap.empty

/-! ## `DiscoverUsage` -/

/-- The vendor scan of `discoverNodeGPUTypes`: the model of the first vendor label found. -/
def firstProduct (labels : StrMap String) : List String → Option String
  | [] => none
  | vendor :: vs =>
    match labels (vendor ++ "/gpu.product") with
    | some model => some model
    | none => firstProduct labels vs

/-- One round of the node loop of `discoverNodeGPUTypes`: `nodeGPUType[node.Name] = model`. -/
def nodeTypeStep (nodeGPUType : StrMap String) (node : Node) : StrMap String :=
  match firstProduct node.labels vendors with
  | some model => nodeGPUType.insert node.name model
  | none => nodeGPUType

/-- `discoverNodeGPUTypes` on the listed nodes. -/
def discoverNodeGPUTypes (nodeItems : List Node) : StrMap String :=
  nodeItems.foldl nodeTypeStep StrMap.empty

/-- One round of the vendor loop over a container's requests: `acc += qty` when the container
requests `vendor/gpu`. -/
def addVendorGPUs (container : Container) (acc : Int) (vendor : String) : Int :=
  match container.requests (vendor ++ "/gpu") with
  | some qty => acc + qty
  | none => acc

/-- The vendor loop over one container's requests, adding to `acc`. -/
def addContainerGPUs (acc : Int) (container : Container) : Int :=
  vendors.foldl (addVendorGPUs container) acc

/-- `getPodGPURequests`: the regular containers' requests summed, the init containers' maximum
from `0`, and the larger of the two. -/
def getPodGPURequests (pod : Pod) : Int :=
  let regularTotal := pod.containers.foldl addContainerGPUs 0
  let initMax := pod.initContainers.foldl (fun initMax container =>
    let containerGPUs := addContainerGPUs 0 container
    if containerGPUs > initMax then containerGPUs else initMax) 0
  if initMax > regularTotal then initMax else regularTotal

/-- One round of the pod loop of `DiscoverUsage`. -/
def usageStep (nodeGPUType : StrMap String) (usageByType : StrMap Int) (pod : Pod) : StrMap Int :=
  if pod.nodeName = "" then usageByType
  else if pod.phase = .succeeded ∨ pod.phase = .failed then usageByType
  else match nodeGPUType pod.nodeName with
    | none => usageByType
    | some gpuType =>
      let gpuCount := getPodGPURequests pod
      if gpuCount > 0 then usageByType.insert gpuType ((usageByType gpuType).getD 0 + gpuCount)
      else usageByType

/-- `DiscoverUsage` on the listed nodes and pods. -/
def discoverUsage (nodeItems : List Node) (pods : List Pod) : StrMap Int :=
  pods.foldl (usageStep (discoverNodeGPUTypes nodeItems)) StrMap.empty

/-! ## The methods, through the cluster client -/

/-- The label selector of a `List` call on nodes: a key that must exist
(`labels.NewRequirement(key, selection.Exists, nil)`), or the parsed `WVA_NODE_SELECTOR`. -/
inductive NodeSelector
  | labelExists (key : String)
  | user (selects : StrMap String → Bool)

/-- The calls to the cluster API: `Client.List` on nodes with a selector, and on pods; a failed call
returns its error's message. -/
structure ClusterClient where
  listNodes : NodeSelector → Except String (List Node)
  listPods : Except String (List Pod)

/-- A `K8sWithGpuOperator`: its client, the value of the environment variable `WVA_NODE_SELECTOR`,
and the parser `labels.Parse` that value goes through. -/
structure K8sWithGpuOperator where
  client : ClusterClient
  nodeSelectorEnv : String
  parseSelector : String → Except String (StrMap String → Bool)

/-- `nodesByName[name] = node` on the entries of the map: the entry of `name` takes the node, or a
new entry is added. -/
def setNode : List (String × Node) → String → Node → List (String × Node)
  | [], name, node => [(name, node)]
  | (k, v) :: es, name, node => if k = name then (k, node) :: es else (k, v) :: setNode es name node

/-- The vendor loop of `listGPUOperatorNodes`: list the nodes that carry the vendor's product label
and collect them by name; the first failed `List` returns its error. -/
def collectNodes (client : ClusterClient) :
    List String → List (String × Node) → Except String (List (String × Node))
  | [], nodesByName => .ok nodesByName
  | vendor :: vs, nodesByName =>
    match client.listNodes (.labelExists (vendor ++ "/gpu.product")) with
    | .error err => .error ("failed to list nodes: " ++ err)
    | .ok items =>
      collectNodes client vs (items.foldl (fun m node => setNode m node.name node) nodesByName)

/-- `listGPUOperatorNodes`: with `WVA_NODE_SELECTOR` set, the nodes it selects as the API lists
them; otherwise the nodes collected by name, in the map's iteration order `order`. -/
def K8sWithGpuOperator.listGPUOperatorNodes (d : K8sWithGpuOperator)
    (order : List (String × Node) → List (String × Node)) : Except String (List Node) :=
  if d.nodeSelectorEnv ≠ "" then
    match d.parseSelector d.nodeSelectorEnv with
    | .error err => .error ("invalid WVA_NODE_SELECTOR: " ++ err)
    | .ok userSelector =>
      match d.client.listNodes (.user userSelector) with
      | .error err => .error ("failed to list nodes: " ++ err)
      | .ok items => .ok items
  else
    match collectNodes d.client vendors [] with
    | .error err => .error err
    | .ok nodesByName => .ok ((order nodesByName).map Prod.snd)

/-- `Discover`. -/
def K8sWithGpuOperator.discover (d : K8sWithGpuOperator)
    (order : List (String × Node) → List (String × Node)) :
    Except String (StrMap (StrMap AcceleratorModelInfo)) :=
  match d.listGPUOperatorNodes order with
  | .error err => .error err
  | .ok nodeItems => .ok (Discovery.discover nodeItems)

/-- `discoverNodeGPUTypes`. -/
def K8sWithGpuOperator.discoverNodeGPUTypes (d : K8sWithGpuOperator)
    (order : List (String × Node) → List (String × Node)) : Except String (StrMap String) :=
  match d.listGPUOperatorNodes order with
  | .error err => .error err
  | .ok nodeItems => .ok (Discovery.discoverNodeGPUTypes nodeItems)

/-- `DiscoverUsage`: the node types, then the pods, then the pod loop. -/
def K8sWithGpuOperator.discoverUsage (d : K8sWithGpuOperator)
    (order : List (String × Node) → List (String × Node)) : Except String (StrMap Int) :=
  match d.discoverNodeGPUTypes order with
  | .error err => .error ("failed to discover node GPU types: " ++ err)
  | .ok nodeGPUType =>
    match d.client.listPods with
    | .error err => .error ("failed to list pods: " ++ err)
    | .ok pods => .ok (pods.foldl (usageStep nodeGPUType) StrMap.empty)

end InfernoAutoscaler.Discovery
