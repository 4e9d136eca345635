import Mathlib
import InfernoAutoscaler.Discovery.K8sWithGpuOperator

/-!
# What `DiscoverUsage` counts

* `getPodGPURequests_eq_max` — a pod asks for the larger of its init containers' maximum and its
  regular containers' sum, each container summing its vendor requests; the maximum starts at `0`,
  so the `gpuCount > 0` test only skips zeros (`getPodGPURequests_nonneg`);
* `usageStep_apply` — one round of the pod loop adds a pod's requests under `t` exactly when the
  pod is `countedUnder` `t` and asks for GPUs;
* `lists_of_nodeGPUType` — the type `discoverNodeGPUTypes` gives a node is a model `Discover`
  lists on it: the first vendor label found is one of the labels `Discover` records, and the
  inventory of a node only grows;
* `discover_isSome_iff` — the two scans report the same nodes, so the pods of every node in the
  inventory are counted;
* `discoverUsage_spec` — every key of the usage map comes from a counted pod on a node that lists
  it, and `usage[t]` is the sum of the requests of the pods counted under `t`.

Both `Discover` and `DiscoverUsage` list the nodes themselves; here they read one list.
-/

namespace InfernoAutoscaler.Discovery

/-- A pod is counted under the accelerator type `t`: scheduled, neither succeeded nor failed, and
on a node whose GPU type is `t`. -/
def countedUnder (nodeGPUType : StrMap String) (t : String) (pod : Pod) : Bool :=
  decide (pod.nodeName ≠ "") && decide (pod.phase ≠ .succeeded) && decide (pod.phase ≠ .failed) &&
    decide (nodeGPUType pod.nodeName = some t)

/-- The inventory lists the model `t` on the node `nodeName`. -/
def Lists (inv : StrMap (StrMap AcceleratorModelInfo)) (nodeName t : String) : Prop :=
  ∃ inner, inv nodeName = some inner ∧ (inner t).isSome

@[simp] lemma StrMap.insert_apply {V : Type} (m : StrMap V) (k : String) (v : V) (k' : String) :
    m.insert k v k' = if k' = k then some v else m k' := by
  simp [StrMap.insert, Function.update_apply]

/-! ## Loops that only add -/

section Fold

variable {β γ : Type} (P : β → Prop) (f : β → γ → β)

/-- A loop whose every round keeps `P` keeps it. -/
lemma foldl_preserves (hstep : ∀ b x, P b → P (f b x)) : ∀ (l : List γ) (b : β), P b → P (l.foldl f b)
  | [], _, h => h
  | x :: l, b, h => foldl_preserves hstep l (f b x) (hstep b x h)

/-- A loop whose every round keeps `P` ends in `P` once one of its rounds establishes it. -/
lemma foldl_establishes (hstep : ∀ b x, P b → P (f b x)) {x : γ} (hx : ∀ b, P (f b x)) :
    ∀ (l : List γ) (b : β), x ∈ l → P (l.foldl f b)
  | y :: l, b, hmem => by
    rcases List.mem_cons.1 hmem with rfl | hmem
    · exact foldl_preserves P f hstep l _ (hx b)
    · exact foldl_establishes hstep hx l _ hmem

/-- A loop whose rounds make `P` true only for a reason `Q` of the round's own: `P` at the end held
at the start, or some round had its reason. -/
lemma foldl_reflects (Q : γ → Prop) (hstep : ∀ b x, P (f b x) → P b ∨ Q x) :
    ∀ (l : List γ) (b : β), P (l.foldl f b) → P b ∨ ∃ x ∈ l, Q x
  | [], _, h => Or.inl h
  | x :: l, b, h => by
    rcases foldl_reflects Q hstep l _ h with h | ⟨y, hy, hq⟩
    · exact (hstep b x h).imp_right fun hq => ⟨x, List.mem_cons_self _ _, hq⟩
    · exact Or.inr ⟨y, List.mem_cons_of_mem _ hy, hq⟩

end Fold

/-! ## Requests of a pod -/

/-- The requests of one container, summed over the vendors. -/
def containerGPUs (container : Container) : Int := addContainerGPUs 0 container

lemma foldl_addVendorGPUs (container : Container) : ∀ (l : List String) (acc : Int),
    l.foldl (addVendorGPUs container) acc =
      acc + (l.map fun vendor => (container.requests (vendor ++ "/gpu")).getD 0).sum
  | [], acc => by simp
  | v :: l, acc => by
    rw [List.foldl_cons, foldl_addVendorGPUs container l, addVendorGPUs]
    rcases hq : container.requests (v ++ "/gpu") with _ | q <;> simp [hq, add_assoc]

lemma containerGPUs_eq (container : Container) :
    containerGPUs container =
      (vendors.map fun vendor => (container.requests (vendor ++ "/gpu")).getD 0).sum := by
  simp only [containerGPUs, addContainerGPUs, foldl_addVendorGPUs, zero_add]

lemma foldl_addContainerGPUs : ∀ (l : List Container) (acc : Int),
    l.foldl addContainerGPUs acc = acc + (l.map containerGPUs).sum
  | [], acc => by simp
  | c :: l, acc => by
    rw [List.foldl_cons, foldl_addContainerGPUs l, addContainerGPUs, foldl_addVendorGPUs,
      ← containerGPUs_eq, List.map_cons, List.sum_cons, add_assoc]

lemma foldl_initMax : ∀ (l : List Container) (m : Int),
    l.foldl (fun initMax container =>
      if addContainerGPUs 0 container > initMax then addContainerGPUs 0 container else initMax) m =
    (l.map containerGPUs).foldl max m
  | [], _ => rfl
  | c :: l, m => by
    rw [List.foldl_cons, foldl_initMax l, List.map_cons, List.foldl_cons]
    congr 1
    simp only [containerGPUs]
    split_ifs <;> omega

/-- `getPodGPURequests` is `max(initContainerMax, regularContainerSum)`. -/
lemma getPodGPURequests_eq_max (pod : Pod) :
    getPodGPURequests pod =
      max ((pod.initContainers.map containerGPUs).foldl max 0) (pod.containers.map containerGPUs).sum := by
  unfold getPodGPURequests
  dsimp only
  rw [foldl_initMax, foldl_addContainerGPUs, zero_add]
  split_ifs <;> omega

lemma le_foldl_max : ∀ (l : List Int) (m : Int), m ≤ l.foldl max m
  | [], _ => le_rfl
  | x :: l, m => (le_max_left m x).trans (le_foldl_max l _)

lemma getPodGPURequests_nonneg (pod : Pod) : 0 ≤ getPodGPURequests pod := by
  rw [getPodGPURequests_eq_max]
  exact (le_foldl_max _ 0).trans (le_max_left _ _)

/-! ## The pod loop -/

lemma usageStep_apply (g : StrMap String) (u : StrMap Int) (pod : Pod) (t : String) :
    usageStep g u pod t = if countedUnder g t pod ∧ 0 < getPodGPURequests pod then
      some ((u t).getD 0 + getPodGPURequests pod) else u t := by
  unfold usageStep countedUnder
  by_cases h1 : pod.nodeName = ""
  · simp [h1]
  by_cases h2 : pod.phase = .succeeded ∨ pod.phase = .failed
  · rcases h2 with h2 | h2 <;> simp [h1, h2]
  push_neg at h2
  rw [if_neg h1, if_neg (by tauto)]
  rcases hg : g pod.nodeName with _ | gpuType
  · simp [h1, h2, hg]
  · simp only [hg]
    split_ifs with hc hd hd <;> simp_all [eq_comm]

/-- **The usage sum**: after the loop over `pods`, `usage[t]` has grown by the requests of the
pods counted under `t`. -/
theorem foldl_usageStep_getD (g : StrMap String) (t : String) :
    ∀ (pods : List Pod) (u : StrMap Int), ((pods.foldl (usageStep g) u) t).getD 0 =
      (u t).getD 0 + ((pods.filter (countedUnder g t)).map getPodGPURequests).sum
  | [], u => by simp
  | pod :: pods, u => by
    rw [List.foldl_cons, foldl_usageStep_getD g t pods, usageStep_apply, List.filter_cons]
    by_cases hc : countedUnder g t pod
    · rcases (getPodGPURequests_nonneg pod).lt_or_eq with hpos | hzero
      · simp [hc, hpos]; ring
      · simp [hc, ← hzero]
    · simp [hc]

/-- A key of the usage map was there before the loop or comes from a counted pod that asks for
GPUs. -/
theorem isSome_foldl_usageStep (g : StrMap String) (t : String) (pods : List Pod) (u : StrMap Int)
    (h : ((pods.foldl (usageStep g) u) t).isSome) :
    (u t).isSome ∨ ∃ pod ∈ pods, countedUnder g t pod ∧ 0 < getPodGPURequests pod :=
  foldl_reflects (fun u : StrMap Int => (u t).isSome) _ _ (fun u pod h => by
    dsimp only at h ⊢
    rw [usageStep_apply] at h
    split_ifs at h with hc
    exacts [Or.inr hc, Or.inl h]) pods u h

/-! ## The node loops -/

/-- A round of `Discover` never removes a model from a node. -/
lemma vendorStep_lists (node : Node) (inv : StrMap (StrMap AcceleratorModelInfo)) (v n t : String)
    (h : Lists inv n t) : Lists (vendorStep node inv v) n t := by
  obtain ⟨inner, hinv, ht⟩ := h
  unfold vendorStep
  split
  · by_cases hn : n = node.name
    · subst hn
      simp only [Lists, StrMap.insert_apply, if_true, hinv, Option.getD_some, Option.some.injEq,
        exists_eq_left']
      split_ifs <;> simp [ht]
    · exact ⟨inner, by simp [hn, hinv], ht⟩
  · exact ⟨inner, hinv, ht⟩

/-- The round of a vendor whose product label a node carries lists that product on the node. -/
lemma vendorStep_lists_self (node : Node) (inv : StrMap (StrMap AcceleratorModelInfo))
    (v model : String) (h : node.labels (v ++ "/gpu.product") = some model) :
    Lists (vendorStep node inv v) node.name model := by
  simp only [Lists, vendorStep, h, StrMap.insert_apply, if_true, Option.some.injEq,
    exists_eq_left', Option.isSome_some]

/-- `Discover` lists every product label of every node, under the vendors it scans. -/
theorem lists_discover (nodeItems : List Node) (node : Node) (v model : String)
    (hnode : node ∈ nodeItems) (hv : v ∈ vendors)
    (h : node.labels (v ++ "/gpu.product") = some model) :
    Lists (discover nodeItems) node.name model :=
  have hvendor : ∀ inv node', Lists inv node.name model →
      Lists (vendors.foldl (vendorStep node') inv) node.name model := fun inv node' =>
    foldl_preserves (Lists · node.name model) _ (fun inv v' => vendorStep_lists node' inv v' _ _)
      vendors inv
  foldl_establishes (Lists · node.name model) _ hvendor
    (fun inv => foldl_establishes (Lists · node.name model) _
      (fun inv v' => vendorStep_lists node inv v' _ _)
      (fun inv => vendorStep_lists_self node inv v model h) vendors inv hv)
    nodeItems _ hnode

/-- The first product label `discoverNodeGPUTypes` finds is a product label of a scanned vendor. -/
lemma firstProduct_spec (labels : StrMap String) (t : String) :
    ∀ vs, firstProduct labels vs = some t → ∃ v ∈ vs, labels (v ++ "/gpu.product") = some t
  | [], h => by simp [firstProduct] at h
  | v :: vs, h => by
    unfold firstProduct at h
    split at h
    · next model hm => exact ⟨v, List.mem_cons_self _ _, by rw [hm, h]⟩
    · obtain ⟨v', hv', h'⟩ := firstProduct_spec labels t vs h
      exact ⟨v', List.mem_cons_of_mem _ hv', h'⟩

/-- The GPU type of a node comes from a node of that name and its first product label. -/
lemma nodeGPUType_spec (nodeItems : List Node) (n t : String)
    (h : discoverNodeGPUTypes nodeItems n = some t) :
    ∃ node ∈ nodeItems, node.name = n ∧ firstProduct node.labels vendors = some t := by
  refine (foldl_reflects (fun g : StrMap String => g n = some t) _
    (fun node => node.name = n ∧ firstProduct node.labels vendors = some t) (fun g node h => ?_)
    nodeItems _ h).resolve_left (by simp [StrMap.empty])
  dsimp only at h ⊢
  rcases hp : firstProduct node.labels vendors with _ | model
  · simp only [nodeTypeStep, hp] at h
    exact Or.inl h
  · simp only [nodeTypeStep, hp, StrMap.insert_apply] at h
    split_ifs at h with hn
    · exact Or.inr ⟨hn.symm, h⟩
    · exact Or.inl h

/-- **The two vendor scans agree**: the GPU type `discoverNodeGPUTypes` gives a node is a model
`Discover` lists on it. -/
theorem lists_of_nodeGPUType (nodeItems : List Node) (n t : String)
    (h : discoverNodeGPUTypes nodeItems n = some t) : Lists (discover nodeItems) n t := by
  obtain ⟨node, hmem, rfl, hp⟩ := nodeGPUType_spec nodeItems n t h
  obtain ⟨v, hv, hl⟩ := firstProduct_spec _ _ _ hp
  exact lists_discover nodeItems node v t hmem hv hl

/-! ## The nodes both scans report -/

/-- A round of `Discover` adds a node entry only for a node with that vendor's product label. -/
lemma vendorStep_isSome (node : Node) (inv : StrMap (StrMap AcceleratorModelInfo)) (v n : String)
    (h : (vendorStep node inv v n).isSome) :
    (inv n).isSome ∨ (node.name = n ∧ (node.labels (v ++ "/gpu.product")).isSome) := by
  rcases hl : node.labels (v ++ "/gpu.product") with _ | model
  · simp only [vendorStep, hl] at h
    exact Or.inl h
  · simp only [vendorStep, hl, StrMap.insert_apply] at h
    split_ifs at h with hn
    · exact Or.inr ⟨hn.symm, rfl⟩
    · exact Or.inl h

/-- `Discover` has an entry for a node name only if a node of that name carries a product label. -/
lemma isSome_discover {nodeItems : List Node} {n : String} (h : (discover nodeItems n).isSome) :
    ∃ node ∈ nodeItems, node.name = n ∧ ∃ v ∈ vendors, (node.labels (v ++ "/gpu.product")).isSome :=
  (foldl_reflects (fun inv => (inv n).isSome) _ _ (fun inv node h =>
    (foldl_reflects (fun inv => (inv n).isSome) _ _ (fun inv v h => vendorStep_isSome node inv v n h)
      vendors inv h).imp_right fun ⟨v, hv, hn, hl⟩ => ⟨hn, v, hv, hl⟩)
    nodeItems _ h).resolve_left (by simp [StrMap.empty])

lemma firstProduct_isSome_iff (labels : StrMap String) :
    ∀ vs, (firstProduct labels vs).isSome ↔ ∃ v ∈ vs, (labels (v ++ "/gpu.product")).isSome
  | [] => by simp [firstProduct]
  | v :: vs => by
    rcases h : labels (v ++ "/gpu.product") with _ | model <;>
      simp [firstProduct, h, firstProduct_isSome_iff labels vs]

/-- `discoverNodeGPUTypes` gives a type to every node with a product label. -/
lemma isSome_nodeGPUType {nodeItems : List Node} {node : Node} (hnode : node ∈ nodeItems)
    (hp : (firstProduct node.labels vendors).isSome) :
    (discoverNodeGPUTypes nodeItems node.name).isSome := by
  obtain ⟨t, ht⟩ := Option.isSome_iff_exists.1 hp
  refine foldl_establishes (fun g => (g node.name).isSome) nodeTypeStep (fun g x h => ?_)
    (fun g => by simp [nodeTypeStep, ht]) nodeItems _ hnode
  rcases hx : firstProduct x.labels vendors <;> simp only [nodeTypeStep, hx, StrMap.insert_apply]
  · exact h
  · split_ifs <;> simp [h]

/-- **The two vendor scans report the same nodes**: `Discover` has an entry for a node exactly when
`discoverNodeGPUTypes` gives it a type, so the pods of every node in the inventory are counted. -/
theorem discover_isSome_iff (nodeItems : List Node) (n : String) :
    (discover nodeItems n).isSome ↔ (discoverNodeGPUTypes nodeItems n).isSome := by
  constructor
  · intro h
    obtain ⟨node, hnode, rfl, v, hv, hl⟩ := isSome_discover h
    exact isSome_nodeGPUType hnode ((firstProduct_isSome_iff _ _).2 ⟨v, hv, hl⟩)
  · intro h
    obtain ⟨t, ht⟩ := Option.isSome_iff_exists.1 h
    obtain ⟨inner, hinner, _⟩ := lists_of_nodeGPUType nodeItems n t ht
    simp [hinner]

/-- **`DiscoverUsage`**: every key `t` of the usage map comes from a counted pod asking for GPUs on
a node whose inventory lists `t`; every counted pod sits on such a node; and `usage[t]` is the sum
of the requests of the pods counted under `t`, a pod's requests being the larger of its init
containers' maximum and its regular containers' sum. -/
theorem discoverUsage_spec (nodeItems : List Node) (pods : List Pod) (t : String) :
    ((discoverUsage nodeItems pods t).isSome →
      ∃ pod ∈ pods, countedUnder (discoverNodeGPUTypes nodeItems) t pod ∧
        0 < getPodGPURequests pod ∧ Lists (discover nodeItems) pod.nodeName t) ∧
    (∀ pod ∈ pods, countedUnder (discoverNodeGPUTypes nodeItems) t pod →
      Lists (discover nodeItems) pod.nodeName t) ∧
    (discoverUsage nodeItems pods t).getD 0 =
      ((pods.filter (countedUnder (discoverNodeGPUTypes nodeItems) t)).map getPodGPURequests).sum ∧
    (∀ pod ∈ pods, getPodGPURequests pod =
      max ((pod.initContainers.map containerGPUs).foldl max 0)
        (pod.containers.map containerGPUs).sum) := by
  have hlists : ∀ pod, countedUnder (discoverNodeGPUTypes nodeItems) t pod →
      Lists (discover nodeItems) pod.nodeName t := fun pod hc =>
    lists_of_nodeGPUType nodeItems _ t (by simp_all [countedUnder])
  refine ⟨fun h => ?_, fun pod _ => hlists pod, ?_, fun pod _ => getPodGPURequests_eq_max pod⟩
  · rcases isSome_foldl_usageStep _ t pods _ h with h | ⟨pod, hmem, hc, hpos⟩
    · simp [StrMap.empty] at h
    · exact ⟨pod, hmem, hc, hpos, hlists pod hc⟩
  · simp [discoverUsage, foldl_usageStep_getD, StrMap.empty]

end InfernoAutoscaler.Discovery
