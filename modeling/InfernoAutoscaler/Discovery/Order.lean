import Mathlib
import InfernoAutoscaler.Discovery.Usage

/-!
# Discovery does not depend on the order of the cluster's lists

`listGPUOperatorNodes` returns its nodes in the iteration order of a Go map, which nothing fixes,
and the API lists pods in no fixed order either.  With distinct node names, which
`listGPUOperatorNodes` ensures by collecting the nodes by name, the inventory, the node types and
the usage map are the same for every order.

* `LocalAt` — a map update that changes one key from that key's old value alone; a round of either
  node loop is one at the node's name, and two at different keys commute (`LocalAt.comm`);
* `discoverUsage_eq_if` — the usage map in closed form, in which the pod order no longer appears;
* `discovery_perm` — **the order-independence** of `Discover`, `discoverNodeGPUTypes` and
  `DiscoverUsage`.
-/

namespace InfernoAutoscaler.Discovery

/-! ## Updates of one key -/

/-- `f` changes a map at `a` only, and there from the old value at `a` alone. -/
def LocalAt {V : Type} (a : String) (f : StrMap V → StrMap V) : Prop :=
  ∃ g : Option V → Option V, ∀ m, f m = Function.update m a (g (m a))

section LocalAt

variable {V : Type} {a : String} {f f' : StrMap V → StrMap V}

lemma LocalAt.comp (hf : LocalAt a f) (hf' : LocalAt a f') : LocalAt a (f' ∘ f) := by
  obtain ⟨g, hg⟩ := hf
  obtain ⟨g', hg'⟩ := hf'
  exact ⟨g' ∘ g, fun m => by simp [hg, hg']⟩

/-- Updates at two different keys commute. -/
lemma LocalAt.comm {b : String} (hf : LocalAt a f) (hf' : LocalAt b f') (hab : a ≠ b)
    (m : StrMap V) : f (f' m) = f' (f m) := by
  obtain ⟨g, hg⟩ := hf
  obtain ⟨g', hg'⟩ := hf'
  rw [hg, hg', hg', hg, Function.update_noteq hab, Function.update_noteq hab.symm,
    Function.update_comm hab]

/-- A loop whose every round is an update at `a` is one. -/
lemma LocalAt.foldl {γ : Type} {h : StrMap V → γ → StrMap V} (hh : ∀ x, LocalAt a (h · x)) :
    ∀ l : List γ, LocalAt a (l.foldl h ·)
  | [] => ⟨id, fun m => by simp⟩
  | x :: l => (hh x).comp (LocalAt.foldl hh l)

end LocalAt

/-- A round of the vendor loop of `Discover` updates the node's own entry. -/
lemma vendorStep_localAt (node : Node) (v : String) : LocalAt node.name (vendorStep node · v) :=
  ⟨fun inner => match node.labels (v ++ "/gpu.product") with
    | some model => some ((inner.getD StrMap.empty).insert model
        ⟨(node.allocatable (v ++ "/gpu")).getD 0, (node.labels (v ++ "/gpu.memory")).getD ""⟩)
    | none => inner,
   fun inv => by rcases h : node.labels (v ++ "/gpu.product") <;> simp [vendorStep, h, StrMap.insert]⟩

/-- A round of the node loop of `discoverNodeGPUTypes` updates the node's own entry. -/
lemma nodeTypeStep_localAt (node : Node) : LocalAt node.name (nodeTypeStep · node) :=
  ⟨fun t => (firstProduct node.labels vendors).or t,
   fun g => by rcases h : firstProduct node.labels vendors <;> simp [nodeTypeStep, h, StrMap.insert]⟩

section Nodes

variable {nodeItems nodeItems' : List Node} (hp : nodeItems.Perm nodeItems')
  (hnd : (nodeItems.map Node.name).Nodup)
include hp hnd

/-- A node loop whose rounds update the node's own entry gives the same map in every order of
nodes with distinct names. -/
lemma foldl_perm_of_localAt {V : Type} {h : StrMap V → Node → StrMap V}
    (hh : ∀ node, LocalAt node.name (h · node)) (m : StrMap V) :
    nodeItems.foldl h m = nodeItems'.foldl h m :=
  hp.foldl_eq' (fun x hx y hy z => by
    by_cases hxy : x.name = y.name
    · rw [List.inj_on_of_nodup_map hnd hx hy hxy]
    · exact (hh y).comm (hh x) (Ne.symm hxy) z) m

lemma discover_perm : discover nodeItems = discover nodeItems' :=
  foldl_perm_of_localAt hp hnd (fun node => LocalAt.foldl (vendorStep_localAt node) vendors) _

lemma discoverNodeGPUTypes_perm : discoverNodeGPUTypes nodeItems = discoverNodeGPUTypes nodeItems' :=
  foldl_perm_of_localAt hp hnd nodeTypeStep_localAt _

end Nodes

/-! ## The usage map in closed form -/

/-- A key of the usage map stays, and a counted pod asking for GPUs puts its type in. -/
lemma isSome_foldl_usageStep_of (g : StrMap String) (t : String) :
    ∀ (pods : List Pod) (u : StrMap Int),
      ((u t).isSome ∨ ∃ pod ∈ pods, countedUnder g t pod ∧ 0 < getPodGPURequests pod) →
      ((pods.foldl (usageStep g) u) t).isSome
  | [], _, h => h.resolve_right (by simp)
  | pod :: pods, u, h => by
    refine isSome_foldl_usageStep_of g t pods _ ?_
    rw [usageStep_apply]
    rcases h with h | ⟨p, hp, hc⟩
    · split_ifs <;> simp [h]
    · rcases List.mem_cons.1 hp with rfl | hp
      · simp [hc]
      · split_ifs
        · simp
        · exact Or.inr ⟨p, hp, hc⟩

/-- **The usage map**: the type `t` is a key exactly when a counted pod asks for GPUs, and then
holds the requests of the pods counted under `t`. -/
theorem discoverUsage_eq_if (nodeItems : List Node) (pods : List Pod) (t : String) :
    discoverUsage nodeItems pods t =
      if ∃ pod ∈ pods, countedUnder (discoverNodeGPUTypes nodeItems) t pod ∧
          0 < getPodGPURequests pod then
        some ((pods.filter (countedUnder (discoverNodeGPUTypes nodeItems) t)).map
          getPodGPURequests).sum
      else none := by
  have hsum := foldl_usageStep_getD (discoverNodeGPUTypes nodeItems) t pods StrMap.empty
  split_ifs with h
  · obtain ⟨x, hx⟩ := Option.isSome_iff_exists.1
      (isSome_foldl_usageStep_of _ t pods StrMap.empty (Or.inr h))
    simp only [discoverUsage, hx, Option.getD_some, StrMap.empty, Option.getD_none,
      zero_add] at hsum ⊢
    rw [hsum]
  · refine Option.not_isSome_iff_eq_none.1 fun hs => ?_
    rcases isSome_foldl_usageStep _ t pods StrMap.empty hs with h' | h'
    · simp [StrMap.empty] at h'
    · exact h h'

/-! ## Order-independence -/

/-- **`Discover`, `discoverNodeGPUTypes` and `DiscoverUsage` do not depend on the order of the
listed nodes, when their names are distinct, nor on the order of the listed pods.** -/
theorem discovery_perm {nodeItems nodeItems' : List Node} {pods pods' : List Pod}
    (hn : nodeItems.Perm nodeItems') (hnd : (nodeItems.map Node.name).Nodup)
    (hp : pods.Perm pods') :
    discover nodeItems = discover nodeItems' ∧
      discoverNodeGPUTypes nodeItems = discoverNodeGPUTypes nodeItems' ∧
      discoverUsage nodeItems pods = discoverUsage nodeItems' pods' := by
  have hg := discoverNodeGPUTypes_perm hn hnd
  refine ⟨discover_perm hn hnd, hg, funext fun t => ?_⟩
  rw [discoverUsage_eq_if, discoverUsage_eq_if, hg, ((hp.filter _).map _).sum_eq]
  simp only [hp.mem_iff]

theorem discovery_perm_swap :
    let a : Node := ⟨"a", fun k => if k = "nvidia.com/gpu.product" then some "A100" else none,
      fun _ => some 8⟩
    let b : Node := ⟨"b", fun k => if k = "amd.com/gpu.product" then some "MI300X" else none,
      fun _ => some 4⟩
    let gpus : Container := ⟨fun k => if k = "nvidia.com/gpu" then some 2 else none⟩
    let p : Pod := ⟨"a", .running, [gpus], []⟩
    let q : Pod := ⟨"b", .pending, [], [gpus]⟩
    discover [a, b] = discover [b, a] ∧
      discoverNodeGPUTypes [a, b] = discoverNodeGPUTypes [b, a] ∧
      discoverUsage [a, b] [p, q] = discoverUsage [b, a] [q, p] :=
  discovery_perm (List.Perm.swap _ _ _) (by decide) (List.Perm.swap _ _ _)

end InfernoAutoscaler.Discovery
