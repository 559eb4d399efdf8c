import Conformance.Hierarchy.Creation
import Conformance.Proofs.Computation
import Mathlib.Data.List.Basic

/-!
# Coherent hierarchies

A hierarchy is `Coherent` if the order of a class holds the orders of all classes in it, and a class that derives from
one that keeps track of abstract functions keeps track of them, too.  What a class has, the classes that derive from it
then have as well.

Every hierarchy that a program builds is coherent (`Built.coherent`): the standard classes are, and a class that is made
from bases of a coherent hierarchy takes over their orders (`mem_mergeOrders`).
-/

namespace Conformance.Hierarchy

open Conformance.Computation

/-- Whether a class keeps track of functions without a body. -/
def tracks (h : Hierarchy) (c : ClassRef) : Bool := (h.class? c).any Class.tracksAbstract

/-- Orders hold the orders of their members, and keeping track of abstract functions is inherited. -/
structure Coherent (h : Hierarchy) : Prop where
  closed : ∀ c, ∀ d ∈ h.order c, h.order d ⊆ h.order c
  tracking : ∀ c, ∀ d ∈ h.order c, h.tracks d = true → h.tracks c = true

/-! ## Merged orders -/

theorem mem_dropHead {c x : ClassRef} {lists : List (List ClassRef)} (h : ∃ l ∈ dropHead c lists, x ∈ l) :
    ∃ l ∈ lists, x ∈ l := by
  obtain ⟨l', hl', hx⟩ := h
  obtain ⟨l, hl, rfl⟩ := List.mem_map.mp hl'
  refine ⟨l, hl, ?_⟩
  split at hx
  · exact List.mem_of_mem_tail hx
  · exact hx

/-- Only the class itself is lost when it is taken from the front. -/
theorem eq_or_mem_dropHead {c x : ClassRef} {lists : List (List ClassRef)} {l : List ClassRef} (hl : l ∈ lists)
    (hx : x ∈ l) : x = c ∨ ∃ l' ∈ dropHead c lists, x ∈ l' := by
  by_cases hxc : x = c
  · exact .inl hxc
  · refine .inr ⟨_, List.mem_map_of_mem hl, ?_⟩
    split
    · next hhead =>
      obtain ⟨rest, rfl⟩ := List.head?_eq_some_iff.mp hhead
      exact (List.mem_cons.mp hx).resolve_left hxc
    · exact hx

theorem nextClass?_mem {c : ClassRef} {lists : List (List ClassRef)} (h : nextClass? lists = some c) :
    ∃ l ∈ lists, c ∈ l := by
  have hhead : c ∈ lists.filterMap List.head? := List.mem_of_find?_eq_some h
  obtain ⟨l, hl, hc⟩ := List.mem_filterMap.mp hhead
  exact ⟨l, hl, List.mem_of_head? hc⟩

theorem not_mem_of_all_isEmpty {lists : List (List ClassRef)} (h : lists.all List.isEmpty = true) (c : ClassRef) :
    ¬ ∃ l ∈ lists, c ∈ l := by
  rintro ⟨l, hl, hc⟩
  have hnil : l.isEmpty = true := List.all_eq_true.mp h l hl
  rw [List.isEmpty_iff.mp hnil] at hc
  cases hc

/-- What is merged holds the members of the lists and nothing else. -/
theorem mem_mergeFrom {fuel : Nat} {lists : List (List ClassRef)} {order : List ClassRef}
    (h : mergeFrom fuel lists = some order) (x : ClassRef) : x ∈ order ↔ ∃ l ∈ lists, x ∈ l := by
  induction fuel generalizing lists order with
  | zero =>
    rw [mergeFrom] at h
    split at h
    · next hempty =>
      cases h
      exact iff_of_false List.not_mem_nil (not_mem_of_all_isEmpty hempty x)
    · cases h
  | succ fuel ih =>
    rw [mergeFrom] at h
    split at h
    · next hempty =>
      cases h
      exact iff_of_false List.not_mem_nil (not_mem_of_all_isEmpty hempty x)
    · split at h
      · cases h
      · next c hnext =>
        obtain ⟨rest, hrest, rfl⟩ := Option.map_eq_some_iff.mp h
        rw [List.mem_cons, ih hrest]
        constructor
        · rintro (rfl | hx)
          · exact nextClass?_mem hnext
          · exact mem_dropHead hx
        · rintro ⟨l, hl, hx⟩
          exact eq_or_mem_dropHead hl hx

theorem mem_mergeOrders {lists : List (List ClassRef)} {order : List ClassRef} (h : mergeOrders lists = some order)
    (x : ClassRef) : x ∈ order ↔ ∃ l ∈ lists, x ∈ l :=
  mem_mergeFrom h x

/-! ## Well-formed hierarchies -/

/-- What stands at the place of the reference goes by it. -/
def Has (h : Hierarchy) (c : ClassRef) : Prop := ∃ k, h.class? c = some k ∧ k.ref = c

/-- Classes go by their places, and an order starts from the class itself, names classes of the hierarchy only and is
closed under their orders and what they keep track of. -/
structure WellFormed (h : Hierarchy) : Prop where
  placed : ∀ (i : Nat) (k : Class), h.classes[i]? = some k → k.ref.index = i
  itself : ∀ k ∈ h.classes, k.ref ∈ k.order
  known : ∀ k ∈ h.classes, ∀ d ∈ k.order, h.Has d
  closed : ∀ k ∈ h.classes, ∀ d ∈ k.order, h.order d ⊆ k.order
  tracking : ∀ k ∈ h.classes, ∀ d ∈ k.order, h.tracks d = true → k.tracksAbstract = true

section
variable {h : Hierarchy} {c d : ClassRef} {k : Class}

theorem mem_of_class? (hk : h.class? c = some k) : k ∈ h.classes := List.mem_of_getElem? hk

theorem order_of_class? (hk : h.class? c = some k) : h.order c = k.order := by simp [order, hk]

theorem tracks_of_class? (hk : h.class? c = some k) : h.tracks c = k.tracksAbstract := by simp [tracks, hk]

/-- Only a class of the hierarchy has an order. -/
theorem exists_class?_of_mem_order (hd : d ∈ h.order c) : ∃ k, h.class? c = some k ∧ d ∈ k.order := by
  cases hk : h.class? c with
  | none =>
    rw [order, hk] at hd
    cases hd
  | some k =>
    rw [order_of_class? hk] at hd
    exact ⟨k, rfl, hd⟩

/-- It is enough to look at the classes of the hierarchy. -/
theorem coherent_of_classes (hclosed : ∀ k ∈ h.classes, ∀ d ∈ k.order, h.order d ⊆ k.order)
    (htracking : ∀ k ∈ h.classes, ∀ d ∈ k.order, h.tracks d = true → k.tracksAbstract = true) : h.Coherent where
  closed := by
    intro c d hd
    obtain ⟨k, hk, hd⟩ := exists_class?_of_mem_order hd
    rw [order_of_class? hk]
    exact hclosed k (mem_of_class? hk) d hd
  tracking := by
    intro c d hd htracks
    obtain ⟨k, hk, hd⟩ := exists_class?_of_mem_order hd
    rw [tracks_of_class? hk]
    exact htracking k (mem_of_class? hk) d hd htracks

theorem WellFormed.coherent (hh : h.WellFormed) : h.Coherent := coherent_of_classes hh.closed hh.tracking

theorem WellFormed.mem_order (hh : h.WellFormed) (hc : h.Has c) : c ∈ h.order c := by
  obtain ⟨k, hk, rfl⟩ := hc
  rw [order_of_class? hk]
  exact hh.itself k (mem_of_class? hk)

theorem WellFormed.has_of_mem_order (hh : h.WellFormed) (hd : d ∈ h.order c) : h.Has d := by
  obtain ⟨k, hk, hd⟩ := exists_class?_of_mem_order hd
  exact hh.known k (mem_of_class? hk) d hd

/-- A class of the hierarchy is found under its own reference. -/
theorem WellFormed.class?_ref (hh : h.WellFormed) (hk : k ∈ h.classes) : h.class? k.ref = some k := by
  obtain ⟨i, hi⟩ := List.mem_iff_getElem?.mp hk
  have hplace : k.ref.index = i := hh.placed i k hi
  rw [class?, hplace, hi]

/-! ## One more class -/

theorem index_lt_of_class? (hk : h.class? c = some k) : c.index < h.classes.length :=
  (List.getElem?_eq_some_iff.mp hk).1

theorem class?_add_of_lt (k : Class) (hc : c.index < h.classes.length) : (h.add k).class? c = h.class? c :=
  List.getElem?_append_left hc

theorem class?_add_ref (hk : k.ref.index = h.classes.length) : (h.add k).class? k.ref = some k := by
  show (h.classes ++ [k])[k.ref.index]? = some k
  rw [hk, List.getElem?_concat_length]

theorem Has.add (hc : h.Has c) (k : Class) : (h.add k).Has c := by
  obtain ⟨k', hk', href⟩ := hc
  exact ⟨k', by rw [class?_add_of_lt k (index_lt_of_class? hk'), hk'], href⟩

theorem Has.class?_add (hc : h.Has c) (k : Class) : (h.add k).class? c = h.class? c := by
  obtain ⟨k', hk', -⟩ := hc
  exact class?_add_of_lt k (index_lt_of_class? hk')

theorem Has.order_add (hc : h.Has c) (k : Class) : (h.add k).order c = h.order c := by
  rw [order, order, hc.class?_add]

theorem Has.tracks_add (hc : h.Has c) (k : Class) : (h.add k).tracks c = h.tracks c := by
  rw [tracks, tracks, hc.class?_add]

/-- A class can be added whose order starts from itself and goes on with a closed list of classes, if it takes over
what they keep track of. -/
theorem WellFormed.add (hh : h.WellFormed) {k : Class} {rest : List ClassRef}
    (hindex : k.ref.index = h.classes.length) (horder : k.order = k.ref :: rest) (hknown : ∀ d ∈ rest, h.Has d)
    (hclosed : ∀ d ∈ rest, h.order d ⊆ rest) (htracking : ∀ d ∈ rest, h.tracks d = true → k.tracksAbstract = true) :
    (h.add k).WellFormed := by
  have hself : (h.add k).class? k.ref = some k := class?_add_ref hindex
  have hmem (k' : Class) (hk' : k' ∈ (h.add k).classes) : k' ∈ h.classes ∨ k' = k := by
    simpa [Hierarchy.add] using hk'
  constructor
  case placed =>
    intro i k' hi
    by_cases hlt : i < h.classes.length
    · have hold : h.classes[i]? = some k' := by rw [← hi]; exact (List.getElem?_append_left hlt).symm
      exact hh.placed i k' hold
    · have hi' : (h.classes ++ [k])[i]? = some k' := hi
      have hlast : i = h.classes.length := by
        have hbound := (List.getElem?_eq_some_iff.mp hi').1
        rw [List.length_append, List.length_singleton] at hbound
        omega
      rw [hlast, List.getElem?_concat_length] at hi'
      cases hi'
      rw [hindex, hlast]
  case itself =>
    intro k' hk'
    rcases hmem k' hk' with hold | rfl
    · exact hh.itself k' hold
    · rw [horder]
      exact List.mem_cons_self
  case known =>
    intro k' hk' d hd
    rcases hmem k' hk' with hold | rfl
    · exact (hh.known k' hold d hd).add k
    · rw [horder] at hd
      rcases List.mem_cons.mp hd with rfl | hd
      · exact ⟨k', hself, rfl⟩
      · exact (hknown d hd).add k'
  case closed =>
    intro k' hk' d hd
    rcases hmem k' hk' with hold | rfl
    · rw [(hh.known k' hold d hd).order_add]
      exact hh.closed k' hold d hd
    · rw [horder] at hd ⊢
      rcases List.mem_cons.mp hd with rfl | hd
      · rw [order_of_class? hself, horder]
        exact List.Subset.refl _
      · rw [(hknown d hd).order_add]
        exact fun x hx => List.mem_cons_of_mem _ (hclosed d hd hx)
  case tracking =>
    intro k' hk' d hd htracks
    rcases hmem k' hk' with hold | rfl
    · rw [(hh.known k' hold d hd).tracks_add] at htracks
      exact hh.tracking k' hold d hd htracks
    · rw [horder] at hd
      rcases List.mem_cons.mp hd with rfl | hd
      · rwa [tracks_of_class? hself] at htracks
      · rw [(hknown d hd).tracks_add] at htracks
        exact htracking d hd htracks

/-! ## Making a class -/

/-- The draft names the class as a base, as it stands or applied to arguments. -/
def NamesBase (d : Draft) (c : ClassRef) : Prop := .type c ∈ d.bases ∨ ∃ args, .applied (.type c) args ∈ d.bases

theorem mem_resolveBases {protocolNamed : Bool} {bases : List Value} {named : List ClassRef}
    (h : resolveBases protocolNamed bases = .ok named) {c : ClassRef} (hc : c ∈ named) :
    .type c ∈ bases ∨ ∃ args, .applied (.type c) args ∈ bases := by
  induction bases generalizing named with
  | nil =>
    cases h
    cases hc
  | cons base bases ih =>
    have hlater (others : List ClassRef) (hothers : resolveBases protocolNamed bases = .ok others) (hc : c ∈ others) :
        .type c ∈ base :: bases ∨ ∃ args, .applied (.type c) args ∈ base :: bases := by
      rcases ih hothers hc with hplain | ⟨args, happlied⟩
      · exact .inl (List.mem_cons_of_mem _ hplain)
      · exact .inr ⟨args, List.mem_cons_of_mem _ happlied⟩
    unfold resolveBases at h
    split at h
    · next heq => cases heq
    · next c' rest heq =>
      cases heq
      obtain ⟨others, hothers, hnamed⟩ := except_bind_eq_ok h
      cases hnamed
      rcases List.mem_cons.mp hc with rfl | hc
      · exact .inl List.mem_cons_self
      · exact hlater others hothers hc
    · next c' args rest heq =>
      cases heq
      obtain ⟨others, hothers, hnamed⟩ := except_bind_eq_ok h
      cases hnamed
      split at hc
      · exact hlater others hothers hc
      · rcases List.mem_cons.mp hc with rfl | hc
        · exact .inr ⟨args, List.mem_cons_self⟩
        · exact hlater others hothers hc
    · cases h

/-- A base is named, unless none is. -/
theorem mem_basesOf {d : Draft} {bases : List ClassRef} (h : basesOf d = .ok bases) {c : ClassRef} (hc : c ∈ bases) :
    NamesBase d c ∨ c = .object := by
  obtain ⟨named, hnamed, hbases⟩ := except_bind_eq_ok h
  cases hbases
  split at hc
  · exact .inr (List.mem_singleton.mp hc)
  · exact .inl (mem_resolveBases hnamed hc)

theorem above_eq_ok {bases rest : List ClassRef} {layout : ClassRef} (habove : h.above bases = .ok (layout, rest)) :
    mergeOrders (bases.map h.order ++ [bases]) = some rest := by
  unfold above at habove
  split at habove
  · cases habove
  · obtain ⟨layout', -, habove⟩ := except_bind_eq_ok habove
    split at habove
    · cases habove
    · next hmerge =>
      cases habove
      exact hmerge
    · cases habove

/-- What a class is made of. -/
theorem create_eq_ok {h' : Hierarchy} {d : Draft} (hcreate : h.create d = .ok (h', c)) :
    ∃ bases rest layout parameters, basesOf d = .ok bases ∧
      mergeOrders (bases.map h.order ++ [bases]) = some rest ∧
      h' = h.add (h.assemble d bases rest layout parameters) ∧ c = (h.assemble d bases rest layout parameters).ref := by
  obtain ⟨bases, hbases, hcreate⟩ := except_bind_eq_ok hcreate
  obtain ⟨⟨layout, rest⟩, habove, hcreate⟩ := except_bind_eq_ok hcreate
  obtain ⟨parameters, -, hcreate⟩ := except_bind_eq_ok hcreate
  obtain ⟨_, -, hcreate⟩ := except_bind_eq_ok hcreate
  cases hcreate
  exact ⟨bases, rest, layout, parameters, hbases, above_eq_ok habove, rfl, rfl⟩

/-- A class made from bases of a well-formed hierarchy takes over their orders and what they keep track of. -/
theorem WellFormed.create (hh : h.WellFormed) (hroot : h.Has .object) {d : Draft}
    (hbases : ∀ c, NamesBase d c → h.Has c) {h' : Hierarchy} (hcreate : h.create d = .ok (h', c)) :
    h'.WellFormed := by
  obtain ⟨bases, rest, layout, parameters, hbasesOf, hmerge, rfl, rfl⟩ := create_eq_ok hcreate
  have hhas (b : ClassRef) (hb : b ∈ bases) : h.Has b := by
    rcases mem_basesOf hbasesOf hb with hnamed | rfl
    · exact hbases b hnamed
    · exact hroot
  -- what stands in the merged order stands in the order of a base
  have hrest (x : ClassRef) : x ∈ rest ↔ ∃ b ∈ bases, x ∈ h.order b := by
    rw [mem_mergeOrders hmerge]
    constructor
    · rintro ⟨l, hl, hx⟩
      rcases List.mem_append.mp hl with horder | hown
      · obtain ⟨b, hb, rfl⟩ := List.mem_map.mp horder
        exact ⟨b, hb, hx⟩
      · rw [List.mem_singleton.mp hown] at hx
        exact ⟨x, hx, hh.mem_order (hhas x hx)⟩
    · rintro ⟨b, hb, hx⟩
      exact ⟨h.order b, List.mem_append_left _ (List.mem_map_of_mem hb), hx⟩
  refine hh.add rfl rfl ?_ ?_ ?_
  · intro x hx
    obtain ⟨b, -, hx⟩ := (hrest x).mp hx
    exact hh.has_of_mem_order hx
  · intro x hx y hy
    obtain ⟨b, hb, hx⟩ := (hrest x).mp hx
    exact (hrest y).mpr ⟨b, hb, hh.coherent.closed b x hx hy⟩
  · intro x hx htracks
    obtain ⟨b, hb, hx⟩ := (hrest x).mp hx
    have hbase : h.tracks b = true := hh.coherent.tracking b x hx htracks
    have hany : (bases.any fun b => (h.class? b).any Class.tracksAbstract) = true :=
      List.any_eq_true.mpr ⟨b, hb, hbase⟩
    show (d.tracksAbstract || bases.any fun b => (h.class? b).any Class.tracksAbstract) = true
    rw [hany, Bool.or_true]

/-! ## The standard classes -/

theorem wellFormed_empty : WellFormed ⟨[]⟩ where
  placed := by simp
  itself := by simp
  known := by simp
  closed := by simp
  tracking := by simp

/-- A standard class can be added to a hierarchy in which its parent keeps track of abstract functions only if it does
so itself. -/
theorem WellFormed.addStandard (hh : h.WellFormed) {s : StandardClass}
    (hs : ∀ k ∈ h.classes, s.parent = some k.ref.name → k.tracksAbstract = true → s.tracksAbstract = true) :
    (h.addStandard s).WellFormed := by
  -- the rest of the order is that of the parent, if there is one
  have hparent (x : ClassRef)
      (hx : x ∈ ((s.parent.bind fun p => (h.named? p).bind h.class?).map Class.order).getD []) :
      ∃ k ∈ h.classes, s.parent = some k.ref.name ∧ x ∈ k.order ∧
        ((s.parent.bind fun p => (h.named? p).bind h.class?).map Class.order).getD [] = k.order := by
    cases hk : s.parent.bind fun p => (h.named? p).bind h.class? with
    | none =>
      rw [hk] at hx
      cases hx
    | some k =>
      rw [hk] at hx
      obtain ⟨p, hp, hk⟩ := Option.bind_eq_some_iff.mp hk
      obtain ⟨c, hc, hk⟩ := Option.bind_eq_some_iff.mp hk
      obtain ⟨k', hk', rfl⟩ := Option.map_eq_some_iff.mp hc
      have hfound : k'.ref.name = p := by simpa using List.find?_some hk'
      have hmem : k' ∈ h.classes := List.mem_of_find?_eq_some hk'
      obtain rfl : k' = k := by
        rw [hh.class?_ref hmem] at hk
        exact Option.some.inj hk
      exact ⟨k', hmem, by rw [hp, hfound], hx, rfl⟩
  refine hh.add rfl rfl ?_ ?_ ?_
  · intro x hx
    obtain ⟨k, hk, -, hx, -⟩ := hparent x hx
    exact hh.known k hk x hx
  · intro x hx
    obtain ⟨k, hk, -, hx, hrest⟩ := hparent x hx
    rw [hrest]
    exact hh.closed k hk x hx
  · intro x hx htracks
    obtain ⟨k, hk, hname, hx, -⟩ := hparent x hx
    exact hs k hk hname (hh.tracking k hk x hx htracks)

/-- Standard classes can be added one after the other if those that keep track of abstract functions are among some names
that none of them derives from. -/
theorem WellFormed.foldl_addStandard (names : List String) {classes : List StandardClass} (hh : h.WellFormed)
    (hnames : ∀ k ∈ h.classes, k.tracksAbstract = true → k.ref.name ∈ names)
    (hclasses : ∀ s ∈ classes, (s.tracksAbstract = true → s.name ∈ names) ∧ ∀ n ∈ names, s.parent ≠ some n) :
    (classes.foldl Hierarchy.addStandard h).WellFormed := by
  induction classes generalizing h with
  | nil => exact hh
  | cons s classes ih =>
    obtain ⟨⟨htracks, hparent⟩, hrest⟩ := List.forall_mem_cons.mp hclasses
    have hnext : (h.addStandard s).WellFormed :=
      hh.addStandard fun k hk hname htracked => absurd hname (hparent _ (hnames k hk htracked))
    refine ih hnext ?_ hrest
    intro k hk htracked
    rcases List.mem_append.mp hk with hold | hnew
    · exact hnames k hold htracked
    · cases List.mem_singleton.mp hnew
      exact htracks htracked

theorem Has.foldl_addStandard (hc : h.Has c) (classes : List StandardClass) :
    (classes.foldl Hierarchy.addStandard h).Has c := by
  induction classes generalizing h with
  | nil => exact hc
  | cons s classes ih => exact ih (hc.add _)

/-- Only two standard classes keep track of abstract functions, and none derives from them. -/
theorem standard_tracking : (dataClasses ++ errorClasses).all (fun s =>
    (!s.tracksAbstract || ["Protocol", "ABC"].contains s.name) && !(s.parent.any ["Protocol", "ABC"].contains)) = true := by
  rfl

theorem wellFormed_standard : WellFormed standard := by
  refine wellFormed_empty.foldl_addStandard ["Protocol", "ABC"] (by simp) fun s hs => ?_
  have hcheck := List.all_eq_true.mp standard_tracking s hs
  simp only [Bool.and_eq_true, Bool.or_eq_true, Bool.not_eq_true', List.contains_iff_mem] at hcheck
  constructor
  · intro htracks
    exact hcheck.1.resolve_left (by simp [htracks])
  · intro n hn hparent
    have hany := hcheck.2
    rw [hparent, Option.any_some] at hany
    exact absurd hn (by simpa using hany)

theorem has_object_standard : Has standard .object := by
  have hsplit : dataClasses ++ errorClasses = dataClasses.take 1 ++ (dataClasses.drop 1 ++ errorClasses) := by
    rw [← List.append_assoc, List.take_append_drop]
  rw [standard, hsplit, List.foldl_append]
  refine Has.foldl_addStandard ?_ _
  exact ⟨_, rfl, rfl⟩

/-! ## What programs build -/

/-- The hierarchies that come of the standard classes when classes are made from bases that are there. -/
inductive Built : Hierarchy → Prop
  | standard : Built standard
  | create {h h' : Hierarchy} {d : Draft} {c : ClassRef} : Built h → (∀ b, NamesBase d b → h.Has b) →
      h.create d = .ok (h', c) → Built h'

theorem Built.wellFormed (hh : Built h) : h.WellFormed ∧ h.Has .object := by
  induction hh with
  | standard => exact ⟨wellFormed_standard, has_object_standard⟩
  | create _ hbases hcreate ih =>
    refine ⟨ih.1.create ih.2 hbases hcreate, ?_⟩
    obtain ⟨bases, rest, layout, parameters, -, -, rfl, -⟩ := create_eq_ok hcreate
    exact ih.2.add _

/-- Every hierarchy that a program builds is coherent. -/
theorem Built.coherent (hh : Built h) : h.Coherent := hh.wellFormed.1.coherent

end

end Conformance.Hierarchy
