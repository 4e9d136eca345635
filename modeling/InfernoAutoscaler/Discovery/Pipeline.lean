import Mathlib
import InfernoAutoscaler.Discovery.Order

/-!
# Discovery through the cluster client

`Discover` and `DiscoverUsage` list the nodes themselves (`listGPUOperatorNodes`): without
`WVA_NODE_SELECTOR` one `List` per vendor, the answers collected by name in a Go map and returned in
the map's iteration order; with it, the nodes the selector matches.  Against a client that answers
from one snapshot of the cluster (`ServesCluster`):

* `Collected` — the invariant of the vendor loop: distinct names, each entry's node of that name, in
  the snapshot and with a product label; the loop records every labelled node (`collectNodes_ok`);
* `listGPUOperatorNodes_perm` — the listed nodes are, in some order, the labelled nodes of the
  snapshot, each once, whatever the order of the API's answers and of the map;
* `discover_filter`, `discoverNodeGPUTypes_filter` — nodes without a product label change nothing;
* `listed_discovery_eq` — **the listing is transparent**: the three methods return what the loops
  give on the snapshot's whole node list;
* `listed_discovery_eq_of_selector` — with `WVA_NODE_SELECTOR`, what they give on its shard;
* `listGPUOperatorNodes_error`, `discoverUsage_error` — an error names the call that failed.
-/

namespace InfernoAutoscaler.Discovery

/-- The node carries the product label of a vendor. -/
def hasProductLabel (node : Node) : Bool :=
  vendors.any fun v => (node.labels (v ++ "/gpu.product")).isSome

/-- The client answers from one snapshot of the cluster, with nodes `nodes` and pods `pods`: a `List`
of nodes returns, in some order, the nodes its selector matches. -/
structure ServesCluster (client : ClusterClient) (nodes : List Node) (pods : List Pod) : Prop where
  listNodes_labelExists : ∀ key, ∃ items, client.listNodes (.labelExists key) = .ok items ∧
    items.Perm (nodes.filter fun node => (node.labels key).isSome)
  listNodes_user : ∀ selects, ∃ items, client.listNodes (.user selects) = .ok items ∧
    items.Perm (nodes.filter fun node => selects node.labels)
  listPods : client.listPods = .ok pods

/-- The client that answers from the snapshot in the snapshot's own order. -/
def ClusterClient.ofSnapshot (nodes : List Node) (pods : List Pod) : ClusterClient where
  listNodes
    | .labelExists key => .ok (nodes.filter fun node => (node.labels key).isSome)
    | .user selects => .ok (nodes.filter fun node => selects node.labels)
  listPods := .ok pods

lemma ofSnapshot_servesCluster (nodes : List Node) (pods : List Pod) :
    ServesCluster (ClusterClient.ofSnapshot nodes pods) nodes pods :=
  ⟨fun _ => ⟨_, rfl, .refl _⟩, fun _ => ⟨_, rfl, .refl _⟩, rfl⟩

/-! ## `nodesByName` -/

section SetNode

variable (name : String) (node : Node)

lemma keys_setNode : ∀ es : List (String × Node), (setNode es name node).map Prod.fst =
    if name ∈ es.map Prod.fst then es.map Prod.fst else es.map Prod.fst ++ [name]
  | [] => by simp [setNode]
  | (k, v) :: es => by
    by_cases hk : k = name
    · subst hk
      simp only [setNode, if_true, List.map_cons, List.mem_cons, true_or]
    · rw [setNode, if_neg hk, List.map_cons, keys_setNode es]
      by_cases hn : name ∈ es.map Prod.fst <;> simp [hn, Ne.symm hk]

lemma mem_setNode {e : String × Node} :
    ∀ {es : List (String × Node)}, e ∈ setNode es name node → e = (name, node) ∨ e ∈ es
  | [], h => by simpa [setNode] using h
  | (k, v) :: es, h => by
    unfold setNode at h
    split_ifs at h with hk
    · rcases List.mem_cons.1 h with rfl | h
      · exact Or.inl (by rw [hk])
      · exact Or.inr (List.mem_cons_of_mem _ h)
    · rcases List.mem_cons.1 h with rfl | h
      · exact Or.inr (List.mem_cons_self _ _)
      · exact (mem_setNode h).imp_right (List.mem_cons_of_mem _)

end SetNode

/-- What the collected map holds: distinct names, each the name of its node, and the node one of
the snapshot with a product label. -/
structure Collected (nodes : List Node) (es : List (String × Node)) : Prop where
  nodup_keys : (es.map Prod.fst).Nodup
  name_eq : ∀ e ∈ es, e.2.name = e.1
  mem_nodes : ∀ e ∈ es, e.2 ∈ nodes
  labelled : ∀ e ∈ es, hasProductLabel e.2

section Collect

variable {nodes : List Node}

lemma Collected.setNode {es : List (String × Node)} (h : Collected nodes es) {node : Node}
    (hn : node ∈ nodes) (hl : hasProductLabel node) : Collected nodes (setNode es node.name node) := by
  refine ⟨?_, fun e he => ?_, fun e he => ?_, fun e he => ?_⟩
  · rw [keys_setNode]
    split_ifs with hk
    · exact h.nodup_keys
    · exact h.nodup_keys.append (List.nodup_singleton _) (List.disjoint_singleton.2 hk)
  all_goals rcases mem_setNode _ _ he with rfl | he
  exacts [rfl, h.name_eq e he, hn, h.mem_nodes e he, hl, h.labelled e he]

lemma mem_keys_setNode {es : List (String × Node)} {name k : String} (node : Node)
    (h : k ∈ es.map Prod.fst ∨ k = name) : k ∈ (setNode es name node).map Prod.fst := by
  rw [keys_setNode]
  split_ifs with hk
  · rcases h with h | rfl
    exacts [h, hk]
  · rcases h with h | rfl
    · exact List.mem_append_left _ h
    · exact List.mem_append_right _ (List.mem_singleton_self _)

/-- One `List` answer collected by name keeps `Collected`, keeps the names, and adds its own. -/
lemma collected_foldl_setNode {items : List Node}
    (hitems : ∀ node ∈ items, node ∈ nodes ∧ hasProductLabel node) :
    ∀ es, Collected nodes es →
      let es' := items.foldl (fun m node => setNode m node.name node) es
      Collected nodes es' ∧ (∀ k ∈ es.map Prod.fst, k ∈ es'.map Prod.fst) ∧
        ∀ node ∈ items, node.name ∈ es'.map Prod.fst := by
  induction items with
  | nil => exact fun es h => ⟨h, fun _ hk => hk, fun _ h => absurd h (List.not_mem_nil _)⟩
  | cons x items ih =>
    intro es h
    have hx := hitems x (List.mem_cons_self _ _)
    obtain ⟨hc, hkeys, hnames⟩ := ih (fun node hn => hitems node (List.mem_cons_of_mem _ hn)) _
      (h.setNode hx.1 hx.2)
    refine ⟨hc, fun k hk => hkeys k (mem_keys_setNode x (Or.inl hk)), fun node hn => ?_⟩
    rcases List.mem_cons.1 hn with rfl | hn
    · exact hkeys _ (mem_keys_setNode node (Or.inr rfl))
    · exact hnames node hn

/-- **The vendor loop**: with a client serving the snapshot, every `List` succeeds, and the map
records, under its name, every node of the snapshot with the product label of a listed vendor. -/
theorem collectNodes_ok {client : ClusterClient} {pods : List Pod}
    (hs : ServesCluster client nodes pods) :
    ∀ vs : List String, (∀ v ∈ vs, v ∈ vendors) → ∀ es, Collected nodes es →
      ∃ es', collectNodes client vs es = .ok es' ∧ Collected nodes es' ∧
        (∀ k ∈ es.map Prod.fst, k ∈ es'.map Prod.fst) ∧
        ∀ v ∈ vs, ∀ node ∈ nodes, (node.labels (v ++ "/gpu.product")).isSome →
          node.name ∈ es'.map Prod.fst
  | [], _, es, h => ⟨es, rfl, h, fun _ hk => hk, fun _ hv => absurd hv (List.not_mem_nil _)⟩
  | v :: vs, hvs, es, h => by
    obtain ⟨items, hitems, hperm⟩ := hs.listNodes_labelExists (v ++ "/gpu.product")
    have hmem : ∀ node, node ∈ items ↔ node ∈ nodes ∧ (node.labels (v ++ "/gpu.product")).isSome :=
      fun node => by rw [hperm.mem_iff, List.mem_filter]
    obtain ⟨hc, hkeys, hnames⟩ := collected_foldl_setNode (fun node hn => ⟨((hmem node).1 hn).1,
      List.any_eq_true.2 ⟨v, hvs v (List.mem_cons_self _ _), ((hmem node).1 hn).2⟩⟩) es h
    obtain ⟨es', hok, hc', hgrow, hcover⟩ :=
      collectNodes_ok hs vs (fun w hw => hvs w (List.mem_cons_of_mem _ hw)) _ hc
    refine ⟨es', by rw [collectNodes, hitems]; exact hok, hc', fun k hk => hgrow k (hkeys k hk),
      fun w hw node hn hl => ?_⟩
    rcases List.mem_cons.1 hw with rfl | hw
    · exact hgrow _ (hnames node ((hmem node).2 ⟨hn, hl⟩))
    · exact hcover w hw node hn hl

end Collect

/-! ## The listed nodes -/

/-- With distinct names in the snapshot, a collected map that records every labelled node holds each
of them once. -/
lemma values_perm {nodes : List Node} (hnames : (nodes.map Node.name).Nodup)
    {es : List (String × Node)} (hc : Collected nodes es)
    (hcover : ∀ v ∈ vendors, ∀ node ∈ nodes, (node.labels (v ++ "/gpu.product")).isSome →
      node.name ∈ es.map Prod.fst) :
    (es.map Prod.snd).Perm (nodes.filter hasProductLabel) := by
  have hkeys : (es.map Prod.snd).map Node.name = es.map Prod.fst := by
    rw [List.map_map]
    exact List.map_congr_left fun e he => hc.name_eq e he
  have hnd : ((es.map Prod.snd).map Node.name).Nodup := hkeys ▸ hc.nodup_keys
  refine (List.perm_ext_iff_of_nodup (List.Nodup.of_map _ hnd)
    ((List.Nodup.of_map _ hnames).filter _)).2 fun node => ?_
  rw [List.mem_filter]
  constructor
  · intro h
    obtain ⟨e, he, rfl⟩ := List.mem_map.1 h
    exact ⟨hc.mem_nodes e he, hc.labelled e he⟩
  · rintro ⟨hn, hl⟩
    obtain ⟨v, hv, hlv⟩ := List.any_eq_true.1 hl
    obtain ⟨e, he, hk⟩ := List.mem_map.1 (hcover v hv node hn hlv)
    exact List.mem_map.2 ⟨e, he, List.inj_on_of_nodup_map hnames (hc.mem_nodes e he) hn
      ((hc.name_eq e he).trans hk)⟩

/-- **`listGPUOperatorNodes` without `WVA_NODE_SELECTOR`** lists, in some order, the nodes of the
snapshot with a product label, each once, whatever the order of the API's answers and of the map:
a node labelled by two vendors is collected twice under one name. -/
theorem listGPUOperatorNodes_perm {d : K8sWithGpuOperator} {nodes : List Node} {pods : List Pod}
    (hs : ServesCluster d.client nodes pods) (hnames : (nodes.map Node.name).Nodup)
    (henv : d.nodeSelectorEnv = "") {order : List (String × Node) → List (String × Node)}
    (hord : ∀ es, (order es).Perm es) :
    ∃ nodeItems, d.listGPUOperatorNodes order = .ok nodeItems ∧
      nodeItems.Perm (nodes.filter hasProductLabel) := by
  have hempty : Collected nodes [] := ⟨List.nodup_nil, by simp, by simp, by simp⟩
  obtain ⟨es, hok, hc, -, hcover⟩ := collectNodes_ok hs vendors (fun _ h => h) [] hempty
  refine ⟨_, ?_, ((hord es).map Prod.snd).trans (values_perm hnames hc hcover)⟩
  simp only [K8sWithGpuOperator.listGPUOperatorNodes, henv, ne_eq, not_true_eq_false, if_false, hok]

/-- With `WVA_NODE_SELECTOR` set and parsed, `listGPUOperatorNodes` lists the nodes it selects. -/
lemma listGPUOperatorNodes_of_selector {d : K8sWithGpuOperator} {nodes : List Node}
    {pods : List Pod} (hs : ServesCluster d.client nodes pods) (henv : d.nodeSelectorEnv ≠ "")
    {selects : StrMap String → Bool} (hsel : d.parseSelector d.nodeSelectorEnv = .ok selects)
    (order : List (String × Node) → List (String × Node)) :
    ∃ nodeItems, d.listGPUOperatorNodes order = .ok nodeItems ∧
      nodeItems.Perm (nodes.filter fun node => selects node.labels) := by
  obtain ⟨items, hitems, hperm⟩ := hs.listNodes_user selects
  exact ⟨items, by simp only [K8sWithGpuOperator.listGPUOperatorNodes, if_pos henv, hsel, hitems],
    hperm⟩

/-- Once the nodes are listed, the methods are the loops on them. -/
lemma methods_of_listGPUOperatorNodes {d : K8sWithGpuOperator}
    {order : List (String × Node) → List (String × Node)} {nodeItems : List Node}
    (h : d.listGPUOperatorNodes order = .ok nodeItems) :
    d.discover order = .ok (discover nodeItems) ∧
      d.discoverNodeGPUTypes order = .ok (discoverNodeGPUTypes nodeItems) ∧
      ∀ pods, d.client.listPods = .ok pods →
        d.discoverUsage order = .ok (discoverUsage nodeItems pods) := by
  have hg : d.discoverNodeGPUTypes order = .ok (discoverNodeGPUTypes nodeItems) := by
    simp only [K8sWithGpuOperator.discoverNodeGPUTypes, h]
  refine ⟨by simp only [K8sWithGpuOperator.discover, h], hg, fun pods hp => ?_⟩
  simp only [K8sWithGpuOperator.discoverUsage, hg, hp, discoverUsage]

/-! ## Nodes without a product label -/

lemma foldl_eq_self {β γ : Type} {f : β → γ → β} {b : β} :
    ∀ {l : List γ}, (∀ x ∈ l, f b x = b) → l.foldl f b = b
  | [], _ => rfl
  | x :: _, h => by
    rw [List.foldl_cons, h x (List.mem_cons_self _ _)]
    exact foldl_eq_self fun y hy => h y (List.mem_cons_of_mem _ hy)

/-- Dropping the elements a loop does nothing on does not change the loop. -/
lemma foldl_filter_of_noop {β γ : Type} {f : β → γ → β} {p : γ → Bool}
    (h : ∀ b x, p x = false → f b x = b) : ∀ (l : List γ) (b : β), (l.filter p).foldl f b = l.foldl f b
  | [], _ => rfl
  | x :: l, b => by
    rw [List.filter_cons]
    split_ifs with hx
    · rw [List.foldl_cons, List.foldl_cons, foldl_filter_of_noop h l]
    · rw [List.foldl_cons, h b x (by simpa using hx), foldl_filter_of_noop h l]

lemma labels_eq_none_of_hasProductLabel {node : Node} (h : hasProductLabel node = false) :
    ∀ v ∈ vendors, node.labels (v ++ "/gpu.product") = none := fun v hv =>
  Option.not_isSome_iff_eq_none.1 (List.any_eq_false.1 h v hv)

lemma discover_filter (nodes : List Node) :
    discover (nodes.filter hasProductLabel) = discover nodes :=
  foldl_filter_of_noop (fun _ _ h => foldl_eq_self fun v hv => by
    simp only [vendorStep, labels_eq_none_of_hasProductLabel h v hv]) _ _

lemma discoverNodeGPUTypes_filter (nodes : List Node) :
    discoverNodeGPUTypes (nodes.filter hasProductLabel) = discoverNodeGPUTypes nodes :=
  foldl_filter_of_noop (fun g node h => by
    have hp : firstProduct node.labels vendors = none := by
      rw [← Option.not_isSome_iff_eq_none, firstProduct_isSome_iff]
      rintro ⟨v, hv, hl⟩
      simp [labels_eq_none_of_hasProductLabel h v hv] at hl
    simp only [nodeTypeStep, hp]) _ _

/-! ## The methods -/

/-- The methods on a listing that is, in some order, `sel` with distinct names. -/
lemma methods_of_perm {d : K8sWithGpuOperator} {nodes : List Node} {pods : List Pod}
    (hs : ServesCluster d.client nodes pods) {order : List (String × Node) → List (String × Node)}
    {sel nodeItems : List Node} (hl : d.listGPUOperatorNodes order = .ok nodeItems)
    (hp : nodeItems.Perm sel) (hsel : (sel.map Node.name).Nodup) :
    d.discover order = .ok (discover sel) ∧
      d.discoverNodeGPUTypes order = .ok (discoverNodeGPUTypes sel) ∧
      d.discoverUsage order = .ok (discoverUsage sel pods) := by
  have hnd : (nodeItems.map Node.name).Nodup := (hp.map _).nodup_iff.2 hsel
  obtain ⟨h1, h2, h3⟩ := methods_of_listGPUOperatorNodes hl
  rw [discover_perm hp hnd] at h1
  rw [discoverNodeGPUTypes_perm hp hnd] at h2
  refine ⟨h1, h2, (h3 pods hs.listPods).trans ?_⟩
  rw [discoverUsage, discoverUsage, discoverNodeGPUTypes_perm hp hnd]

/-- **The listing is transparent.** Without `WVA_NODE_SELECTOR`, against a client that serves a
snapshot with distinct node names, `Discover`, `discoverNodeGPUTypes` and `DiscoverUsage` succeed
and return what their loops give on the snapshot's whole node list, whatever the order in which the
API answers and in which the map `nodesByName` is read. -/
theorem listed_discovery_eq {d : K8sWithGpuOperator} {nodes : List Node} {pods : List Pod}
    (hs : ServesCluster d.client nodes pods) (hnames : (nodes.map Node.name).Nodup)
    (henv : d.nodeSelectorEnv = "") {order : List (String × Node) → List (String × Node)}
    (hord : ∀ es, (order es).Perm es) :
    d.discover order = .ok (discover nodes) ∧
      d.discoverNodeGPUTypes order = .ok (discoverNodeGPUTypes nodes) ∧
      d.discoverUsage order = .ok (discoverUsage nodes pods) := by
  obtain ⟨nodeItems, hl, hp⟩ := listGPUOperatorNodes_perm hs hnames henv hord
  obtain ⟨h1, h2, h3⟩ := methods_of_perm hs hl hp
    (((List.filter_sublist nodes).map Node.name).nodup hnames)
  rw [discover_filter] at h1
  rw [discoverNodeGPUTypes_filter] at h2
  rw [discoverUsage, discoverNodeGPUTypes_filter] at h3
  exact ⟨h1, h2, h3⟩

theorem listed_discovery_eq_reverse :
    let a : Node := ⟨"a", fun k => if k = "nvidia.com/gpu.product" then some "A100" else none,
      fun _ => some 8⟩
    let b : Node := ⟨"b", fun k => if k = "nvidia.com/gpu.product" ∨ k = "amd.com/gpu.product" then
      some "MI300X" else none, fun _ => some 4⟩
    let c : Node := ⟨"c", fun _ => none, fun _ => none⟩
    let p : Pod := ⟨"a", .running, [⟨fun k => if k = "nvidia.com/gpu" then some 2 else none⟩], []⟩
    let d : K8sWithGpuOperator := ⟨ClusterClient.ofSnapshot [a, b, c] [p], "", fun _ => .error "unset"⟩
    d.discover List.reverse = .ok (discover [a, b, c]) ∧
      d.discoverNodeGPUTypes List.reverse = .ok (discoverNodeGPUTypes [a, b, c]) ∧
      d.discoverUsage List.reverse = .ok (discoverUsage [a, b, c] [p]) :=
  listed_discovery_eq (ofSnapshot_servesCluster _ _) (by decide) rfl List.reverse_perm

/-- **With `WVA_NODE_SELECTOR` set and parsed**, the methods return what their loops give on the
nodes it selects, whatever the order in which the API answers. -/
theorem listed_discovery_eq_of_selector {d : K8sWithGpuOperator} {nodes : List Node}
    {pods : List Pod} (hs : ServesCluster d.client nodes pods) (hnames : (nodes.map Node.name).Nodup)
    (henv : d.nodeSelectorEnv ≠ "") {selects : StrMap String → Bool}
    (hsel : d.parseSelector d.nodeSelectorEnv = .ok selects)
    (order : List (String × Node) → List (String × Node)) :
    let shard := nodes.filter fun node => selects node.labels
    d.discover order = .ok (discover shard) ∧
      d.discoverNodeGPUTypes order = .ok (discoverNodeGPUTypes shard) ∧
      d.discoverUsage order = .ok (discoverUsage shard pods) := by
  obtain ⟨nodeItems, hl, hp⟩ := listGPUOperatorNodes_of_selector hs henv hsel order
  exact methods_of_perm hs hl hp (((List.filter_sublist nodes).map Node.name).nodup hnames)

theorem listed_discovery_eq_of_selector_pool :
    let a : Node := ⟨"a", fun k => if k = "nvidia.com/gpu.product" then some "A100" else
      if k = "pool" then some "inference" else none, fun _ => some 8⟩
    let b : Node := ⟨"b", fun k => if k = "amd.com/gpu.product" then some "MI300X" else none,
      fun _ => some 4⟩
    let d : K8sWithGpuOperator := ⟨ClusterClient.ofSnapshot [a, b] [], "pool",
      fun key => .ok fun labels => (labels key).isSome⟩
    let shard := [a, b].filter fun node => (node.labels "pool").isSome
    d.discover id = .ok (discover shard) ∧
      d.discoverNodeGPUTypes id = .ok (discoverNodeGPUTypes shard) ∧
      d.discoverUsage id = .ok (discoverUsage shard []) := by
  intro a b d shard
  exact listed_discovery_eq_of_selector (d := d) (ofSnapshot_servesCluster [a, b] []) (by decide)
    (by decide) rfl id

/-! ## Errors -/

lemma collectNodes_error {client : ClusterClient} {msg : String} :
    ∀ {vs : List String} {es : List (String × Node)}, collectNodes client vs es = .error msg →
      ∃ err, msg = "failed to list nodes: " ++ err
  | [], _, h => by cases h
  | v :: vs, es, h => by
    unfold collectNodes at h
    split at h
    · exact ⟨_, (Except.error.inj h).symm⟩
    · exact collectNodes_error h

/-- A failed listing says why: the selector did not parse, or a `List` call failed. -/
lemma listGPUOperatorNodes_error {d : K8sWithGpuOperator}
    {order : List (String × Node) → List (String × Node)} {msg : String}
    (h : d.listGPUOperatorNodes order = .error msg) :
    (∃ err, msg = "invalid WVA_NODE_SELECTOR: " ++ err) ∨ ∃ err, msg = "failed to list nodes: " ++ err := by
  unfold K8sWithGpuOperator.listGPUOperatorNodes at h
  split_ifs at h
  · split at h
    · exact Or.inl ⟨_, (Except.error.inj h).symm⟩
    · split at h
      · exact Or.inr ⟨_, (Except.error.inj h).symm⟩
      · cases h
  · split at h
    · next err hc =>
      obtain rfl := Except.error.inj h
      exact Or.inr (collectNodes_error hc)
    · cases h

/-- `DiscoverUsage` fails only when a call fails, and its message names the step: the node types,
wrapping the listing's message, or the pods. -/
lemma discoverUsage_error {d : K8sWithGpuOperator}
    {order : List (String × Node) → List (String × Node)} {msg : String}
    (h : d.discoverUsage order = .error msg) :
    (∃ err, d.listGPUOperatorNodes order = .error err ∧
      msg = "failed to discover node GPU types: " ++ err) ∨
    ∃ err, d.client.listPods = .error err ∧ msg = "failed to list pods: " ++ err := by
  unfold K8sWithGpuOperator.discoverUsage K8sWithGpuOperator.discoverNodeGPUTypes at h
  rcases hl : d.listGPUOperatorNodes order with err | nodeItems <;> simp only [hl] at h
  · exact Or.inl ⟨err, rfl, (Except.error.inj h).symm⟩
  · rcases hp : d.client.listPods with err | pods <;> simp only [hp] at h
    · exact Or.inr ⟨err, rfl, (Except.error.inj h).symm⟩
    · cases h

end InfernoAutoscaler.Discovery