import Mathlib.Data.List.Basic

/-!
# Ordered forests

Forests of nodes and leaves in document order. Nodes are numbered in the order in
which they open; `nodes` lists each with the leaves and the nodes directly below it.
Splicing the content of a node into the place of the node is `append`.
-/

/-- Nodes and leaves, from left to right. -/
inductive Forest (ν τ : Type) where
  | nil
  | leaf (text : τ) (rest : Forest ν τ)
  | node (label : ν) (inner rest : Forest ν τ)
deriving DecidableEq, Repr

namespace Forest

variable {ν τ : Type}

def append : Forest ν τ → Forest ν τ → Forest ν τ
  | nil, g => g
  | leaf t rest, g => leaf t (rest.append g)
  | node a inner rest, g => node a inner (rest.append g)

/-- How many nodes there are. -/
def size : Forest ν τ → Nat
  | nil => 0
  | leaf _ rest => rest.size
  | node _ inner rest => 1 + inner.size + rest.size

/-- The leaves at the top. -/
def leaves : Forest ν τ → List τ
  | nil => []
  | leaf t rest => t :: rest.leaves
  | node _ _ rest => rest.leaves

/-- The numbers of the nodes at the top, where `n` numbers are taken. -/
def tops (n : Nat) : Forest ν τ → List Nat
  | nil => []
  | leaf _ rest => rest.tops n
  | node _ inner rest => (n + 1) :: rest.tops (n + 1 + inner.size)

/-- A node with its number and with what is directly below it. -/
structure Numbered (ν τ : Type) where
  number : Nat
  label : ν
  leaves : List τ
  children : List Nat

/-- The nodes, where `n` numbers are taken. -/
def nodes (n : Nat) : Forest ν τ → List (Numbered ν τ)
  | nil => []
  | leaf _ rest => rest.nodes n
  | node a inner rest =>
      ⟨n + 1, a, inner.leaves, inner.tops (n + 1)⟩ ::
        (inner.nodes (n + 1) ++ rest.nodes (n + 1 + inner.size))

/-- Every leaf, at whatever depth, meets `p`. -/
def AllLeaves (p : τ → Prop) : Forest ν τ → Prop
  | nil => True
  | leaf t rest => p t ∧ rest.AllLeaves p
  | node _ inner rest => inner.AllLeaves p ∧ rest.AllLeaves p

/-- Every node, with what is in it, meets `p`. -/
def AllNodes (p : ν → Forest ν τ → Prop) : Forest ν τ → Prop
  | nil => True
  | leaf _ rest => rest.AllNodes p
  | node a inner rest => p a inner ∧ inner.AllNodes p ∧ rest.AllNodes p

/-- The leaf at the end, if the forest ends in one. -/
def lastLeaf : Forest ν τ → Option τ
  | nil => none
  | leaf t nil => some t
  | leaf _ rest => rest.lastLeaf
  | node _ _ rest => rest.lastLeaf

/-- No two leaves stand next to each other. -/
def LeavesApart : Forest ν τ → Prop
  | nil => True
  | leaf _ nil => True
  | leaf _ (leaf _ _) => False
  | leaf _ (node a inner rest) => LeavesApart (node a inner rest)
  | node _ inner rest => inner.LeavesApart ∧ rest.LeavesApart

/-- Leaves in front of a forest. -/
def afterLeaves (texts : List τ) (f : Forest ν τ) : Forest ν τ :=
  texts.foldr leaf f

@[simp] theorem append_nil (f : Forest ν τ) : f.append nil = f := by
  induction f with
  | nil => rfl
  | leaf t rest ih => rw [append, ih]
  | node a inner rest _ ih => rw [append, ih]

theorem size_append (f g : Forest ν τ) : (f.append g).size = f.size + g.size := by
  induction f with
  | nil => simp [append, size]
  | leaf t rest ih => rw [append, size, size, ih]
  | node a inner rest _ ih =>
    rw [append, size, size, ih]
    omega

theorem leaves_append (f g : Forest ν τ) : (f.append g).leaves = f.leaves ++ g.leaves := by
  induction f with
  | nil => rfl
  | leaf t rest ih => rw [append, leaves, leaves, ih, List.cons_append]
  | node a inner rest _ ih => rw [append, leaves, leaves, ih]

theorem tops_append (f g : Forest ν τ) : ∀ n,
    (f.append g).tops n = f.tops n ++ g.tops (n + f.size) := by
  induction f with
  | nil =>
    intro n
    rfl
  | leaf t rest ih =>
    intro n
    exact ih n
  | node a inner rest _ ih =>
    intro n
    have hsize : n + (1 + inner.size + rest.size) = n + 1 + inner.size + rest.size := by omega
    rw [append, tops, tops, ih, size, hsize, List.cons_append]

theorem nodes_append (f g : Forest ν τ) : ∀ n,
    (f.append g).nodes n = f.nodes n ++ g.nodes (n + f.size) := by
  induction f with
  | nil =>
    intro n
    rfl
  | leaf t rest ih =>
    intro n
    exact ih n
  | node a inner rest _ ih =>
    intro n
    have hsize : n + (1 + inner.size + rest.size) = n + 1 + inner.size + rest.size := by omega
    rw [append, nodes, nodes, ih, size, hsize, List.cons_append, List.append_assoc]

/-- The nodes are numbered without gaps. -/
theorem nodes_numbers (f : Forest ν τ) : ∀ n,
    (f.nodes n).map Numbered.number = List.range' (n + 1) f.size := by
  induction f with
  | nil =>
    intro n
    rfl
  | leaf t rest ih =>
    intro n
    exact ih n
  | node a inner rest ihInner ihRest =>
    intro n
    have hsize : 1 + inner.size + rest.size = 1 + (inner.size + rest.size) := by omega
    rw [nodes, List.map_cons, List.map_append, ihInner, ihRest, size, hsize,
      ← List.range'_append_1, ← List.range'_append_1]
    have hstart : n + 1 + inner.size + 1 = n + 1 + 1 + inner.size := by omega
    rw [hstart]
    rfl

theorem leaves_afterLeaves (texts : List τ) (f : Forest ν τ) :
    (afterLeaves texts f).leaves = texts ++ f.leaves := by
  induction texts with
  | nil => rfl
  | cons t texts ih =>
    show t :: (afterLeaves texts f).leaves = _
    rw [ih, List.cons_append]

/-- Only a node stands behind a leaf. -/
theorem LeavesApart.after_leaf {t : τ} {rest : Forest ν τ} (h : (leaf t rest).LeavesApart) :
    rest.LeavesApart ∧ (rest = nil ∨ ∃ a inner after, rest = node a inner after) := by
  cases rest with
  | nil => exact ⟨trivial, .inl rfl⟩
  | leaf s rest => exact h.elim
  | node a inner after => exact ⟨h, .inr ⟨a, inner, after, rfl⟩⟩

theorem AllNodes.imp {p q : ν → Forest ν τ → Prop} (h : ∀ a inner, p a inner → q a inner)
    {f : Forest ν τ} (hf : f.AllNodes p) : f.AllNodes q := by
  induction f with
  | nil => trivial
  | leaf t rest ih => exact ih hf
  | node a inner rest ihInner ihRest =>
    obtain ⟨hnode, hinner, hrest⟩ := hf
    exact ⟨h a inner hnode, ihInner hinner, ihRest hrest⟩

theorem AllLeaves.imp {p q : τ → Prop} (h : ∀ t, p t → q t) {f : Forest ν τ}
    (hf : f.AllLeaves p) : f.AllLeaves q := by
  induction f with
  | nil => trivial
  | leaf t rest ih => exact ⟨h t hf.1, ih hf.2⟩
  | node a inner rest ihInner ihRest => exact ⟨ihInner hf.1, ihRest hf.2⟩

theorem AllLeaves.leaves {p : τ → Prop} {f : Forest ν τ} (hf : f.AllLeaves p) :
    ∀ t ∈ f.leaves, p t := by
  induction f with
  | nil => exact fun t ht => absurd ht List.not_mem_nil
  | leaf t rest ih => exact List.forall_mem_cons.mpr ⟨hf.1, ih hf.2⟩
  | node a inner rest _ ih => exact ih hf.2

/-- In every node there are only such leaves. -/
theorem AllLeaves.allNodes {p : τ → Prop} {f : Forest ν τ} (hf : f.AllLeaves p) :
    f.AllNodes fun _ inner => ∀ t ∈ inner.leaves, p t := by
  induction f with
  | nil => trivial
  | leaf t rest ih => exact ih hf.2
  | node a inner rest ihInner ihRest => exact ⟨hf.1.leaves, ihInner hf.1, ihRest hf.2⟩

theorem AllLeaves.and {p q : τ → Prop} {f : Forest ν τ} (hp : f.AllLeaves p)
    (hq : f.AllLeaves q) : f.AllLeaves fun t => p t ∧ q t := by
  induction f with
  | nil => trivial
  | leaf t rest ih => exact ⟨⟨hp.1, hq.1⟩, ih hp.2 hq.2⟩
  | node a inner rest ihInner ihRest => exact ⟨ihInner hp.1 hq.1, ihRest hp.2 hq.2⟩

theorem AllNodes.and {p q : ν → Forest ν τ → Prop} {f : Forest ν τ} (hp : f.AllNodes p)
    (hq : f.AllNodes q) : f.AllNodes fun a inner => p a inner ∧ q a inner := by
  induction f with
  | nil => trivial
  | leaf t rest ih => exact ih hp hq
  | node a inner rest ihInner ihRest =>
    exact ⟨⟨hp.1, hq.1⟩, ihInner hp.2.1 hq.2.1, ihRest hp.2.2 hq.2.2⟩

theorem AllNodes.append {p : ν → Forest ν τ → Prop} {f g : Forest ν τ} (hf : f.AllNodes p)
    (hg : g.AllNodes p) : (f.append g).AllNodes p := by
  induction f with
  | nil => exact hg
  | leaf t rest ih => exact ih hf
  | node a inner rest _ ih => exact ⟨hf.1, hf.2.1, ih hf.2.2⟩

end Forest
