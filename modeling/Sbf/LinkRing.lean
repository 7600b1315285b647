import Mathlib.Data.Multiset.Bind
import Mathlib.Logic.Function.Basic
import Mathlib.Tactic.Abel

set_option autoImplicit false

/-! Doubly linked lists in a shared memory. A cell is that of an element or, as `none`, that of
the head; each has a link to the next element, where `none` means that there is none, and a link
back to the cell that links to it. So the list is a ring of edges through the head. -/

structure LinkRing (ι : Type) where
  link : Option ι → Option ι
  back : Option ι → Option ι

namespace LinkRing

variable {ι : Type}

/-- From one cell to the next. -/
abbrev Edges (ι : Type) := Multiset (Option ι × Option ι)

/-- The memory holds the edges, no two of which share an end. -/
def Holds (ring : LinkRing ι) (edges : Edges ι) : Prop :=
  (∀ edge ∈ edges, ring.link edge.1 = edge.2 ∧ ring.back edge.2 = edge.1) ∧
    (edges.map Prod.fst).Nodup ∧ (edges.map Prod.snd).Nodup

/-- The edges from a cell through the elements to the head. -/
def edges (start : Option ι) : List ι → Edges ι
  | [] => {(start, none)}
  | elm :: rest => {(start, some elm)} + edges (some elm) rest

/-- The edges from a cell up to the last of the elements. -/
def front (start : Option ι) : List ι → Edges ι
  | [] => 0
  | elm :: rest => {(start, some elm)} + front (some elm) rest

/-- The cell of the last of the elements. -/
def tip (start : Option ι) : List ι → Option ι
  | [] => start
  | elm :: rest => tip (some elm) rest

/-- The edges from the first of the elements on. -/
def behind : List ι → Edges ι
  | [] => 0
  | elm :: rest => edges (some elm) rest

/-- The ring goes through the elements in this order. -/
def Through (ring : LinkRing ι) (elms : List ι) : Prop := ring.Holds (edges none elms)

variable {ring : LinkRing ι} {all rest : Edges ι} {start first second : Option ι} {elm : ι}
  {elms before after : List ι}

theorem edges_eq (start : Option ι) (elms : List ι) :
    edges start elms = {(start, elms.head?)} + behind elms := by
  cases elms with
  | nil => exact (add_zero _).symm
  | cons elm rest => rfl

theorem edges_append : edges start (before ++ after) =
    front start before + edges (tip start before) after := by
  induction before generalizing start with
  | nil => exact (zero_add _).symm
  | cons elm before ih => rw [List.cons_append, edges, ih, front, tip, add_assoc]

theorem tip_append : tip start (before ++ [elm]) = some elm := by
  induction before generalizing start with
  | nil => rfl
  | cons first before ih => exact ih

theorem tip_eq : tip none elms = elms.getLast? := by
  rcases List.eq_nil_or_concat elms with rfl | ⟨before, elm, rfl⟩
  · rfl
  · rw [List.concat_eq_append, tip_append, List.getLast?_concat]

theorem map_fst_edges : (edges start elms).map Prod.fst = start ::ₘ (elms.map some : Multiset _) := by
  induction elms generalizing start with
  | nil => rfl
  | cons elm rest ih =>
      rw [edges, Multiset.map_add, ih, Multiset.map_singleton, Multiset.singleton_add]
      rfl

theorem map_snd_edges : (edges start elms).map Prod.snd = none ::ₘ (elms.map some : Multiset _) := by
  induction elms generalizing start with
  | nil => rfl
  | cons elm rest ih =>
      rw [edges, Multiset.map_add, ih, Multiset.map_singleton, Multiset.singleton_add,
        Multiset.cons_swap]
      rfl

theorem not_mem_sources {cell : Option ι} :
    cell ∉ (({(first, second)} : Edges ι) + rest).map Prod.fst ↔
      cell ≠ first ∧ cell ∉ rest.map Prod.fst := by
  rw [Multiset.map_add, Multiset.map_singleton, Multiset.singleton_add, Multiset.mem_cons, not_or]

theorem not_mem_targets {cell : Option ι} :
    cell ∉ (({(first, second)} : Edges ι) + rest).map Prod.snd ↔
      cell ≠ second ∧ cell ∉ rest.map Prod.snd := by
  rw [Multiset.map_add, Multiset.map_singleton, Multiset.singleton_add, Multiset.mem_cons, not_or]

theorem Holds.congr (holds : ring.Holds all) (same : all = rest) : ring.Holds rest := same ▸ holds

theorem Holds.mono (holds : ring.Holds (all + rest)) : ring.Holds rest := by
  obtain ⟨each, sources, targets⟩ := holds
  rw [Multiset.map_add] at sources targets
  exact ⟨fun edge inside => each edge (Multiset.mem_add.mpr (Or.inr inside)),
    (Multiset.nodup_add.mp sources).2.1, (Multiset.nodup_add.mp targets).2.1⟩

theorem Holds.read (holds : ring.Holds ({(first, second)} + rest)) :
    ring.link first = second ∧ ring.back second = first :=
  holds.1 (first, second) (Multiset.mem_add.mpr (Or.inl (Multiset.mem_singleton_self _)))

/-- The other edges begin and end elsewhere. -/
theorem Holds.apart (holds : ring.Holds ({(first, second)} + rest)) :
    first ∉ rest.map Prod.fst ∧ second ∉ rest.map Prod.snd := by
  obtain ⟨-, sources, targets⟩ := holds
  rw [Multiset.map_add, Multiset.map_singleton, Multiset.singleton_add,
    Multiset.nodup_cons] at sources targets
  exact ⟨sources.1, targets.1⟩

theorem Through.nodup (through : ring.Through elms) : elms.Nodup := by
  have sources := through.2.1
  rw [map_fst_edges, Multiset.nodup_cons, Multiset.coe_nodup] at sources
  exact sources.2.of_map _

/-- What is read at an element. -/
theorem Through.read (through : ring.Through (before ++ elm :: after)) :
    ring.link (some elm) = after.head? ∧ ring.back (some elm) = tip none before := by
  rw [Through, edges_append, edges, edges_eq] at through
  exact ⟨(through.congr (by abel : _ = {(some elm, after.head?)} + (front none before +
    {(tip none before, some elm)} + behind after))).read.1,
    (through.congr (by abel : _ = {(tip none before, some elm)} + (front none before +
    ({(some elm, after.head?)} + behind after)))).read.2⟩

/-- What is read at the head. -/
theorem Through.read_head (through : ring.Through elms) :
    ring.link none = elms.head? ∧ ring.back none = elms.getLast? := by
  refine ⟨((through.congr (edges_eq _ _)).read).1, ?_⟩
  have split := @edges_append _ none elms []
  rw [List.append_nil] at split
  rw [← tip_eq]
  exact ((through.congr (split.trans (add_comm _ _))).read).2

/-- The link back leads to the cell that links here. -/
theorem Through.link_back {cell : Option ι} (through : ring.Through elms)
    (inside : ∀ elm ∈ cell, elm ∈ elms) : ring.link (ring.back cell) = cell := by
  have target : cell ∈ (edges none elms).map Prod.snd := by
    rw [map_snd_edges, Multiset.mem_cons, Multiset.mem_coe, List.mem_map]
    cases cell with
    | none => exact Or.inl rfl
    | some elm => exact Or.inr ⟨elm, inside elm rfl, rfl⟩
  obtain ⟨edge, there, rfl⟩ := Multiset.mem_map.mp target
  rw [(through.1 edge there).2, (through.1 edge there).1]

/-- What an element outside holds does not matter to the others. -/
theorem Through.frame {other : LinkRing ι} (through : ring.Through elms)
    (same : ∀ cell, cell = none ∨ (∃ elm ∈ elms, cell = some elm) →
      other.link cell = ring.link cell ∧ other.back cell = ring.back cell) :
    other.Through elms := by
  refine ⟨fun edge inside => ?_, through.2⟩
  have source := Multiset.mem_map_of_mem Prod.fst inside
  have target := Multiset.mem_map_of_mem Prod.snd inside
  rw [map_fst_edges] at source
  rw [map_snd_edges] at target
  simp only [Multiset.mem_cons, Multiset.mem_coe, List.mem_map] at source target
  rw [(same edge.1 (source.imp_right fun ⟨elm, there, here⟩ => ⟨elm, there, here.symm⟩)).1,
    (same edge.2 (target.imp_right fun ⟨elm, there, here⟩ => ⟨elm, there, here.symm⟩)).2]
  exact through.1 edge inside

section Joins

variable [DecidableEq ι]

/-- One cell linked to another, both ways. -/
def join (first second : Option ι) (ring : LinkRing ι) : LinkRing ι :=
  ⟨Function.update ring.link first second, Function.update ring.back second first⟩

theorem Holds.join (holds : ring.Holds rest) (source : first ∉ rest.map Prod.fst)
    (target : second ∉ rest.map Prod.snd) :
    (ring.join first second).Holds ({(first, second)} + rest) := by
  obtain ⟨each, sources, targets⟩ := holds
  refine ⟨fun edge inside => ?_, ?_, ?_⟩
  · rcases Multiset.mem_add.mp inside with here | inside
    · rw [Multiset.mem_singleton.mp here]
      exact ⟨Function.update_self .., Function.update_self ..⟩
    · have other : edge.1 ≠ first := fun same =>
        source (same ▸ Multiset.mem_map_of_mem Prod.fst inside)
      have other' : edge.2 ≠ second := fun same =>
        target (same ▸ Multiset.mem_map_of_mem Prod.snd inside)
      exact ⟨(Function.update_of_ne other _ _).trans (each edge inside).1,
        (Function.update_of_ne other' _ _).trans (each edge inside).2⟩
  · rw [Multiset.map_add, Multiset.map_singleton, Multiset.singleton_add]
    exact Multiset.nodup_cons.mpr ⟨source, sources⟩
  · rw [Multiset.map_add, Multiset.map_singleton, Multiset.singleton_add]
    exact Multiset.nodup_cons.mpr ⟨target, targets⟩

/-- An element comes in between two neighbours. -/
theorem Through.insert (through : ring.Through (before ++ after))
    (fresh : elm ∉ before ++ after) :
    ((ring.join (some elm) after.head?).join (tip none before) (some elm)).Through
      (before ++ elm :: after) := by
  have absent : some elm ∉ (edges none (before ++ after)).map Prod.fst ∧
      some elm ∉ (edges none (before ++ after)).map Prod.snd := by
    rw [map_fst_edges, map_snd_edges]
    have outside : some elm ∉ none ::ₘ (((before ++ after).map some : List _) : Multiset _) := by
      simpa using fresh
    exact ⟨outside, outside⟩
  have split : edges none (before ++ after) = {(tip none before, after.head?)} +
      (front none before + behind after) := by
    rw [edges_append, edges_eq]
    abel
  have start := through.congr split
  rw [split, not_mem_sources, not_mem_targets] at absent
  obtain ⟨⟨notTip, absentFst⟩, notNext, absentSnd⟩ := absent
  obtain ⟨apartFst, apartSnd⟩ := start.apart
  have one := @Holds.join _ _ _ (some elm) _ _ start.mono absentFst apartSnd
  have two := one.join (not_mem_sources.mpr ⟨Ne.symm notTip, apartFst⟩)
    (not_mem_targets.mpr ⟨notNext, absentSnd⟩)
  refine two.congr ?_
  rw [edges_append, edges, edges_eq (some elm)]
  abel

/-- The neighbours of an element are linked to each other instead. -/
theorem Through.erase (through : ring.Through (before ++ elm :: after)) :
    (ring.join (tip none before) after.head?).Through (before ++ after) := by
  have split : edges none (before ++ elm :: after) = {(tip none before, some elm)} +
      ({(some elm, after.head?)} + (front none before + behind after)) := by
    rw [edges_append, edges, edges_eq (some elm)]
    abel
  have start := through.congr split
  have source := start.apart.1
  have target := start.mono.apart.2
  refine ((start.mono.mono).join (not_mem_sources.mp source).2 target).congr ?_
  rw [edges_append, edges_eq (tip none before)]
  abel

end Joins

end LinkRing
