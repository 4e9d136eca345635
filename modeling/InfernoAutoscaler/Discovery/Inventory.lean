import Mathlib
import InfernoAutoscaler.Discovery.Order

/-!
# What `Discover` records for a node

For each listed node `Discover` walks `vendors` in order and, for a vendor whose product label is
set, writes `inv[node.Name][model] = {Count, Memory}`; `discoverNodeGPUTypes` keeps the model of
the first product label it finds.  With distinct node names each entry is a function of its own node:

* `foldl_apply_of_localAt` — a node loop whose rounds update the node's own entry leaves, at a
  node's name, what that node's round alone writes there;
* `vendorInfo` — the record a vendor's round writes: the allocatable count of `vendor/gpu`, `0` when
  absent, and the `vendor/gpu.memory` label, `""` when absent;
* `foldl_vendorStep_model` — in the vendor loop the last vendor whose label names a model wins;
* `discover_apply_node` — **each node's entries in closed form**: its GPU type is the product label
  of the first vendor that has one, and for each model its inventory record is that of the last
  vendor whose product label names the model.
-/

namespace InfernoAutoscaler.Discovery

/-! ## Node loops at one node -/

section LocalLoop

variable {V : Type}

lemma LocalAt.apply_of_ne {a k : String} {f : StrMap V → StrMap V} (hf : LocalAt a f) (hk : k ≠ a)
    (m : StrMap V) : f m k = m k := by
  obtain ⟨g, hg⟩ := hf
  rw [hg, Function.update_noteq hk]

lemma LocalAt.apply_congr {a : String} {f : StrMap V → StrMap V} (hf : LocalAt a f)
    {m m' : StrMap V} (he : m a = m' a) : f m a = f m' a := by
  obtain ⟨g, hg⟩ := hf
  rw [hg, hg, Function.update_same, Function.update_same, he]

variable {h : StrMap V → Node → StrMap V} (hh : ∀ node, LocalAt node.name (h · node))
include hh

lemma foldl_apply_of_ne {k : String} :
    ∀ l : List Node, (∀ x ∈ l, x.name ≠ k) → ∀ m, (l.foldl h m) k = m k
  | [], _, _ => rfl
  | x :: l, hl, m => by
    rw [List.foldl_cons, foldl_apply_of_ne l (fun y hy => hl y (List.mem_cons_of_mem _ hy)),
      (hh x).apply_of_ne (hl x (List.mem_cons_self _ _)).symm]

/-- With distinct names, a node's entry after the loop is what its own round writes there. -/
lemma foldl_apply_of_localAt {nodes : List Node} (hnames : (nodes.map Node.name).Nodup)
    {node : Node} (hnode : node ∈ nodes) (m : StrMap V) :
    (nodes.foldl h m) node.name = h m node node.name := by
  obtain ⟨s, t, rfl⟩ := List.append_of_mem hnode
  rw [List.map_append, List.map_cons, List.nodup_append, List.nodup_cons] at hnames
  obtain ⟨-, ⟨ht, -⟩, hst⟩ := hnames
  rw [List.foldl_append, List.foldl_cons,
    foldl_apply_of_ne hh (k := node.name) t (fun x hx he => ht (he ▸ List.mem_map_of_mem _ hx)),
    (hh node).apply_congr (foldl_apply_of_ne hh (k := node.name) s (fun x hx he =>
      hst (List.mem_map_of_mem _ hx) (he ▸ List.mem_cons_self _ _)) m)]

end LocalLoop

/-! ## The vendor scans of one node -/

/-- The record a vendor's round of `Discover` writes for `node`. -/
def vendorInfo (node : Node) (vendor : String) : AcceleratorModelInfo :=
  ⟨(node.allocatable (vendor ++ "/gpu")).getD 0, (node.labels (vendor ++ "/gpu.memory")).getD ""⟩

/-- The scan of `discoverNodeGPUTypes`: the product label of the first vendor that has one. -/
lemma firstProduct_eq_find (labels : StrMap String) :
    ∀ vs : List String, firstProduct labels vs =
      (vs.find? fun v => (labels (v ++ "/gpu.product")).isSome).bind
        fun v => labels (v ++ "/gpu.product")
  | [] => rfl
  | v :: vs => by
    rcases hv : labels (v ++ "/gpu.product") with _ | model <;>
      simp [firstProduct, hv, firstProduct_eq_find labels vs, List.find?_cons]

/-- A round of `Discover` read at the node's own entry and one model. -/
lemma vendorStep_model (node : Node) (inv : StrMap (StrMap AcceleratorModelInfo)) (v model : String) :
    (vendorStep node inv v node.name).bind (· model) =
      if node.labels (v ++ "/gpu.product") = some model then some (vendorInfo node v)
      else (inv node.name).bind (· model) := by
  rcases hv : node.labels (v ++ "/gpu.product") with _ | m
  · simp [vendorStep, hv]
  · by_cases hm : model = m
    · subst hm
      rcases hi : inv node.name <;> simp [vendorStep, hv, hi, vendorInfo]
    · have hm' : m ≠ model := Ne.symm hm
      rcases hi : inv node.name <;> simp [vendorStep, hv, hi, hm, hm', StrMap.empty]

/-- The vendor loop on one node, read at one model: the last vendor whose label names it wins. -/
lemma foldl_vendorStep_model (node : Node) (model : String) :
    ∀ (vs : List String) (inv : StrMap (StrMap AcceleratorModelInfo)),
      ((vs.foldl (vendorStep node) inv) node.name).bind (· model) =
        ((vs.reverse.find? fun v => node.labels (v ++ "/gpu.product") = some model).map
          (vendorInfo node)).or ((inv node.name).bind (· model))
  | [], _ => by simp
  | v :: vs, inv => by
    rw [List.foldl_cons, foldl_vendorStep_model node model vs, vendorStep_model, List.reverse_cons,
      List.find?_append]
    rcases vs.reverse.find? fun v => node.labels (v ++ "/gpu.product") = some model with _ | w <;>
      by_cases hv : node.labels (v ++ "/gpu.product") = some model <;> simp [hv]

/-- **Each node's entries in closed form.** With distinct node names, a listed node's GPU type is
the product label of the first vendor that has one, and for each model its inventory record is that
of the last vendor whose product label names the model. -/
theorem discover_apply_node {nodes : List Node} (hnames : (nodes.map Node.name).Nodup)
    {node : Node} (hnode : node ∈ nodes) :
    discoverNodeGPUTypes nodes node.name =
        ((vendors.find? fun v => (node.labels (v ++ "/gpu.product")).isSome).bind
          fun v => node.labels (v ++ "/gpu.product")) ∧
      ∀ model, ((discover nodes node.name).bind fun inner => inner model) =
        (vendors.reverse.find? fun v => node.labels (v ++ "/gpu.product") = some model).map
          (vendorInfo node) := by
  refine ⟨?_, fun model => ?_⟩
  · rw [discoverNodeGPUTypes, foldl_apply_of_localAt nodeTypeStep_localAt hnames hnode,
      ← firstProduct_eq_find]
    rcases h : firstProduct node.labels vendors with _ | t <;> simp [nodeTypeStep, StrMap.empty, h]
  · rw [discover, foldl_apply_of_localAt (fun x => LocalAt.foldl (vendorStep_localAt x) vendors)
      hnames hnode, foldl_vendorStep_model]
    simp [StrMap.empty]

theorem discover_apply_node_shared_model :
    let b : Node := ⟨"b", fun k => if k = "nvidia.com/gpu.product" ∨ k = "amd.com/gpu.product" then
      some "X" else if k = "amd.com/gpu.memory" then some "192GB" else none,
      fun k => if k = "nvidia.com/gpu" then some 8 else if k = "amd.com/gpu" then some 4 else none⟩
    let a : Node := ⟨"a", fun _ => none, fun _ => none⟩
    discoverNodeGPUTypes [a, b] b.name = some "X" ∧
      ((discover [a, b] b.name).bind fun inner => inner "X") = some ⟨4, "192GB"⟩ := by
  intro b a
  obtain ⟨h1, h2⟩ := discover_apply_node (by decide : ([a, b].map Node.name).Nodup)
    (List.mem_cons_of_mem _ (List.mem_singleton_self b))
  exact ⟨h1.trans rfl, (h2 "X").trans rfl⟩

end InfernoAutoscaler.Discovery
