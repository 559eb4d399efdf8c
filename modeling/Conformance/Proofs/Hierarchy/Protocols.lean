import Conformance.Evaluation.Evaluate
import Conformance.Requirement
import Conformance.Proofs.Hierarchy.Coherence

/-!
# Protocols as requirements

A type that does not derive from a protocol meets it by providing what the protocol declares: as an attribute, or as a
name that a class in its order annotates.  The check passes over names that belong to how classes are kept, and with
them over every name that looks alike, such as that of a special method (`checkRequirements_protocol`).

In a coherent hierarchy a type that derives from a protocol provides all that it declares, so looking at the order first
makes no difference, and what meets a class, an applied generic class or a protocol is met by every class that derives
from it (`requirements_inherited`).
-/

namespace Conformance

open Conformance.Computation

namespace Hierarchy

/-! ## Members -/

section
variable {h : Hierarchy} {c d t p : ClassRef} {n : String}

/-- A protocol, or a class it derives from, binds or annotates the name in its body. -/
def Declares (h : Hierarchy) (p : ClassRef) (n : String) : Prop := ∃ c ∈ h.order p, c ∉ roots ∧ n ∈ h.ownNames c

/-- A class has the attribute, or a class in its order annotates the name. -/
def Provided (h : Hierarchy) (t : ClassRef) (n : String) : Prop :=
  h.classHas t n = true ∨ ∃ c ∈ h.order t, n ∈ h.hints c

/-- The name looks like one that belongs to how classes are kept. -/
def PassedOver (n : String) : Prop :=
  "__".toList <+: n.toList ∨ "_abc_".toList <+: n.toList ∨ Naming.reserved.toList <+: n.toList ∨
    n = "_is_protocol" ∨ n = "_is_runtime_protocol"

instance : Decidable (h.Declares p n) :=
  inferInstanceAs (Decidable (∃ c ∈ h.order p, c ∉ roots ∧ n ∈ h.ownNames c))

instance : Decidable (h.Provided t n) :=
  inferInstanceAs (Decidable (h.classHas t n = true ∨ ∃ c ∈ h.order t, n ∈ h.hints c))

theorem isBookkeeping_iff : isBookkeeping n = true ↔ PassedOver n := by
  simp [isBookkeeping, begins, PassedOver, protocolFlag, or_assoc]

theorem mem_protocolMembers : n ∈ h.protocolMembers p ↔ h.Declares p n ∧ ¬ PassedOver n := by
  unfold protocolMembers Declares
  rw [List.mem_filter, List.mem_flatMap, Bool.not_eq_true', ← Bool.not_eq_true, isBookkeeping_iff]
  simp [List.mem_filter, and_assoc]

theorem mem_declared : n ∈ h.declared (.type t) ↔ ∃ c ∈ h.order t, n ∈ h.hints c := List.mem_flatMap

theorem provides_iff : h.provides (.type t) p = true ↔ ∀ n, h.Declares p n → h.Provided t n ∨ PassedOver n := by
  have hprovided (n : String) :
      (h.has (.type t) n || (h.declared (.type t)).contains n) = true ↔ h.Provided t n := by
    rw [Bool.or_eq_true, List.contains_iff_mem, mem_declared]
    rfl
  unfold provides
  rw [List.all_eq_true]
  constructor
  · intro hall n hn
    by_cases hpassed : PassedOver n
    · exact .inr hpassed
    · exact .inl ((hprovided n).mp (hall n (mem_protocolMembers.mpr ⟨hn, hpassed⟩)))
  · intro hall n hn
    obtain ⟨hdeclares, hpassed⟩ := mem_protocolMembers.mp hn
    exact (hprovided n).mpr ((hall n hdeclares).resolve_right hpassed)

/-- Apart from its order, whether a type meets a protocol is decided by what it provides. -/
theorem isSubtype_of_not_mem_order (hp : h.isProtocol p = true) (hapart : p ∉ h.order t) :
    h.isSubtype (.type t) p = .ok (h.provides (.type t) p) := by
  have hcontains : (h.orderOf (.type t)).contains p = false := by
    rw [← Bool.not_eq_true, List.contains_iff_mem]
    exact hapart
  unfold isSubtype
  rw [if_pos hp, hcontains, Bool.false_or]
  rfl

/-! ## What derived classes have -/

theorem lookup?_isSome_iff : (h.lookup? c n).isSome = true ↔ ∃ k ∈ h.order c, n ∈ (h.body k).map Prod.fst := by
  have hbinds (k : ClassRef) : ((h.body k).lookup n).isSome = true ↔ n ∈ (h.body k).map Prod.fst := by
    rw [List.lookup_isSome_iff, List.mem_map]
    simp only [beq_iff_eq, @eq_comm String n]
  unfold lookup?
  rw [List.findSome?_isSome_iff]
  simp only [hbinds]

namespace Coherent

theorem lookup?_isSome (hh : h.Coherent) (hd : d ∈ h.order c) (hn : (h.lookup? d n).isSome = true) :
    (h.lookup? c n).isSome = true := by
  obtain ⟨k, hk, hbinds⟩ := lookup?_isSome_iff.mp hn
  exact lookup?_isSome_iff.mpr ⟨k, hh.closed c d hd hk, hbinds⟩

theorem classHas (hh : h.Coherent) (hd : d ∈ h.order c) (hn : h.classHas d n = true) : h.classHas c n = true := by
  unfold Hierarchy.classHas at hn ⊢
  rw [Bool.or_eq_true, Bool.or_eq_true, Bool.and_eq_true] at hn ⊢
  rcases hn with (hbound | hclass) | ⟨htracks, hname⟩
  · exact .inl (.inl (hh.lookup?_isSome hd hbound))
  · exact .inl (.inr hclass)
  · exact .inr ⟨hh.tracking c d hd htracks, hname⟩

/-- What a class provides, the classes that derive from it provide. -/
theorem provided (hh : h.Coherent) (hd : d ∈ h.order c) (hn : h.Provided d n) : h.Provided c n := by
  rcases hn with hhas | ⟨k, hk, hhint⟩
  · exact .inl (hh.classHas hd hhas)
  · exact .inr ⟨k, hh.closed c d hd hk, hhint⟩

/-- A class provides all that a protocol in its order declares. -/
theorem provided_of_declares (hh : h.Coherent) (hp : p ∈ h.order t) (hn : h.Declares p n) : h.Provided t n := by
  obtain ⟨k, hk, -, hn⟩ := hn
  have hkt : k ∈ h.order t := hh.closed t p hp hk
  rcases List.mem_append.mp hn with hbinds | hhint
  · refine .inl ?_
    have hfound : (h.lookup? t n).isSome = true := lookup?_isSome_iff.mpr ⟨k, hkt, hbinds⟩
    rw [Hierarchy.classHas, hfound, Bool.true_or, Bool.true_or]
  · exact .inr ⟨k, hkt, hhint⟩

theorem provides_of_mem_order (hh : h.Coherent) (hp : p ∈ h.order t) : h.provides (.type t) p = true :=
  provides_iff.mpr fun _ hn => .inl (hh.provided_of_declares hp hn)

theorem provides_derived (hh : h.Coherent) (hd : d ∈ h.order c) (hp : h.provides (.type d) p = true) :
    h.provides (.type c) p = true :=
  provides_iff.mpr fun n hn => (provides_iff.mp hp n hn).imp_left (hh.provided hd)

/-! ## Subtypes -/

/-- Looking at the order first does not change whether a protocol is met. -/
theorem isSubtype_protocol (hh : h.Coherent) (hp : h.isProtocol p = true) :
    h.isSubtype (.type t) p = .ok (h.provides (.type t) p) := by
  by_cases hmem : p ∈ h.order t
  · have hcontains : (h.orderOf (.type t)).contains p = true := List.contains_iff_mem.mpr hmem
    unfold isSubtype
    rw [if_pos hp, hcontains, Bool.true_or, hh.provides_of_mem_order hmem]
    rfl
  · exact isSubtype_of_not_mem_order hp hmem

/-- What a type is a subtype of, the classes that derive from the type are subtypes of. -/
theorem isSubtype_derived (hh : h.Coherent) (hd : d ∈ h.order c) (hk : h.isSubtype (.type d) p = .ok true) :
    h.isSubtype (.type c) p = .ok true := by
  by_cases hp : h.isProtocol p = true
  · rw [hh.isSubtype_protocol hp, Except.ok.injEq] at hk ⊢
    exact hh.provides_derived hd hk
  · unfold isSubtype at hk ⊢
    rw [if_neg hp] at hk ⊢
    have hmem : p ∈ h.order d := List.contains_iff_mem.mp (Except.ok.inj hk)
    exact congrArg Except.ok (List.contains_iff_mem.mpr (hh.closed c d hd hmem))

end Coherent

end

/-! ## Names that making a class adds -/

section
variable {h : Hierarchy} {c : ClassRef} {n : String}

theorem fst_mem_bind {ns : Namespace} {v : Value} {name : String} :
    n ∈ (Namespace.bind name v ns).map Prod.fst ↔ n = name ∨ n ∈ ns.map Prod.fst := by
  induction ns with
  | nil => simp [Namespace.bind]
  | cons e ns ih =>
    obtain ⟨m, u⟩ := e
    rw [Namespace.bind]
    by_cases hm : m = name
    · simp [hm]
    · rw [if_neg (by simpa using hm), List.map_cons, List.mem_cons, ih, List.map_cons, List.mem_cons]
      exact or_left_comm

theorem fst_mem_withNames {ns : Namespace} {names : List String} :
    n ∈ (withNames names ns).map Prod.fst ↔ n ∈ ns.map Prod.fst ∨ n ∈ names ∧ (ns.lookup n).isNone = true := by
  simp [withNames, List.mem_filter]

/-- Every name that making a class adds is passed over. -/
theorem passedOver_of_mem_addedNames {tracksAbstract isGeneric applied : Bool}
    (hn : n ∈ addedNames tracksAbstract isGeneric applied) : PassedOver n := by
  have hall : ∀ a b e, (addedNames a b e).all isBookkeeping = true := by decide
  exact isBookkeeping_iff.mp (List.all_eq_true.mp (hall _ _ _) n hn)

/-- What a class declares besides names that are passed over is what its body binds and annotates. -/
theorem mem_ownNames_create {h' : Hierarchy} {d : Draft} (hcreate : h.create d = .ok (h', c)) (hn : ¬ PassedOver n) :
    n ∈ h'.ownNames c ↔ n ∈ d.body.map Prod.fst ∨ n ∈ d.hints := by
  obtain ⟨bases, rest, layout, parameters, -, -, rfl, rfl⟩ := create_eq_ok hcreate
  have hclass := class?_add_ref (h := h) (k := h.assemble d bases rest layout parameters) rfl
  have hflag : n ≠ protocolFlag := by
    rintro rfl
    exact hn (.inr (.inr (.inr (.inl rfl))))
  have hadded (a b e : Bool) : n ∉ addedNames a b e := fun hmem => hn (passedOver_of_mem_addedNames hmem)
  unfold ownNames body hints
  rw [hclass, List.mem_append, Option.map_some, Option.getD_some, Option.map_some, Option.getD_some]
  refine or_congr ?_ Iff.rfl
  show n ∈ (withNames (addedNames _ _ _) (if rest.contains .protocol = true then _ else _)).map Prod.fst ↔ _
  rw [fst_mem_withNames]
  split_ifs
  · rw [fst_mem_bind]
    simp [hflag, hadded]
  · simp [hadded]

end

end Hierarchy

/-! ## Checks -/

/-- A class, or a generic class or form applied to arguments. -/
def Value.isTypeForm : Value → Bool
  | .type _ | .applied .. => true
  | _ => false

/-- An answer that calls nothing is given without a change of the state. -/
theorem meets_of_answer {call : Call} {v r : Value} {w : World} {b : Bool} (h : meets? w.classes v r = .ok (some b)) :
    meets call v r w = (.ok b, w) := by
  unfold meets
  rw [get_bind_apply, h]
  rfl

theorem meets_of_error {call : Call} {v r : Value} {w : World} {e : RequirementError}
    (h : meets? w.classes v r = .error e) : meets call v r w = (.error e.raised, w) := by
  unfold meets
  rw [get_bind_apply, h]
  rfl

/-- Types and what is applied are never called. -/
theorem meets?_ne_none {h : Hierarchy} {v r : Value} (hr : r.isTypeForm = true) : meets? h v r ≠ .ok none := by
  have hclass (c : ClassRef) : (do return some (← h.isSubtype v.origin c)) ≠ Except.ok none := by
    intro hc
    obtain ⟨b, -, hnone⟩ := except_bind_eq_ok hc
    cases hnone
  cases r with
  | type c => exact hclass c
  | applied o args =>
    cases o with
    | type c => exact hclass c
    | _ =>
      intro hnone
      cases hnone
  | _ => cases hr

section
variable {call : Call} {v v' : Value} {w : World} {rs : List Value}

/-- A check of types passes if each of them is met. -/
theorem checkRequirements_iff (hrs : ∀ r ∈ rs, r.isTypeForm = true) :
    (checkRequirements call v rs w).1 = .ok () ↔ ∀ r ∈ rs, meets? w.classes v r = .ok (some true) := by
  induction rs with
  | nil => exact iff_of_true rfl (by simp)
  | cons r rs ih =>
    obtain ⟨hr, hrs⟩ := List.forall_mem_cons.mp hrs
    rw [checkRequirements, List.forall_mem_cons, ← ih hrs]
    cases hmeets : meets? w.classes v r with
    | error e =>
      rw [bind_of_error (meets_of_error hmeets)]
      simp
    | ok answer =>
      cases answer with
      | none => exact absurd hmeets (meets?_ne_none hr)
      | some b =>
        rw [bind_of_ok (meets_of_answer hmeets)]
        cases b with
        | true => simp
        | false =>
          refine iff_of_false ?_ (by simp)
          intro hok
          cases hok

/-- What a type meets, the classes that derive from it meet. -/
theorem Hierarchy.Coherent.meets?_derived {h : Hierarchy} (hh : h.Coherent) {c d : ClassRef} {r : Value}
    (hr : r.isTypeForm = true) (hv : v.origin = .type c) (hv' : v'.origin = .type d) (hd : c ∈ h.order d)
    (hmeets : meets? h v r = .ok (some true)) : meets? h v' r = .ok (some true) := by
  have hclass (k : ClassRef) (hk : (do return some (← h.isSubtype v.origin k)) = Except.ok (some true)) :
      (do return some (← h.isSubtype v'.origin k)) = Except.ok (some true) := by
    obtain ⟨b, hb, hsome⟩ := except_bind_eq_ok hk
    cases hsome
    rw [hv] at hb
    rw [hv', hh.isSubtype_derived hd hb]
    rfl
  cases r with
  | type k => exact hclass k hmeets
  | applied o args =>
    cases o with
    | type k => exact hclass k hmeets
    | _ => cases hmeets
  | _ => cases hr

end

/-! ## Some classes -/

namespace Labels

/-- The root, and the classes of generic classes and protocols. -/
def foundation : Hierarchy :=
  ⟨[{ ref := .object, order := [.object], body := [("__init__", Hierarchy.unknownMember)], layout := .object },
    { ref := .generic, order := [.generic, .object], body := [("_is_protocol", .bool false)], layout := .object },
    { ref := .protocol, order := [.protocol, .generic, .object], body := [("_is_protocol", .bool true)],
      layout := .object }]⟩

/-- A protocol with a special method. -/
def sizedDraft : Draft :=
  { name := "Sized", home := "m", bases := [.type .protocol], body := [("__len__", Hierarchy.unknownMember)] }

/-- A protocol with a method and an annotated name. -/
def namedDraft : Draft :=
  { name := "Named", home := "m", bases := [.type .protocol], body := [("show", Hierarchy.unknownMember)],
    hints := ["name"] }

/-- A class with nothing of its own. -/
def boxDraft : Draft := { name := "Box", home := "m" }

/-- A class that has a method and annotates a name. -/
def labelDraft : Draft :=
  { name := "Label", home := "m", body := [("show", Hierarchy.unknownMember)], hints := ["name"] }

def sized : ClassRef := { index := 3, home := some "m", name := "Sized" }
def named : ClassRef := { index := 4, home := some "m", name := "Named" }
def box : ClassRef := { index := 5, home := some "m", name := "Box" }
def label : ClassRef := { index := 6, home := some "m", name := "Label" }

/-- A class that derives from both. -/
def tagDraft : Draft := { name := "Tag", home := "m", bases := [.type box, .type label] }

def tag : ClassRef := { index := 7, home := some "m", name := "Tag" }

/-- The hierarchy after making a class, if it can be made. -/
def after (h : Hierarchy) (d : Draft) : Hierarchy := ((h.create d).toOption.map Prod.fst).getD h

def classes : Hierarchy := [sizedDraft, namedDraft, boxDraft, labelDraft, tagDraft].foldl after foundation

end Labels

/-! ## Protocols -/

theorem checkRequirements_of_isSubtype (call : Call) {w : World} {t p : ClassRef} {b : Bool}
    (h : w.classes.isSubtype (.type t) p = .ok b) :
    checkRequirements call (.type t) [.type p] w =
      (if b then .ok () else .error (RequirementError.unsatisfied (.type t) (.type p)).raised, w) := by
  have hmeets : meets? w.classes (.type t) (.type p) = .ok (some b) := by
    show (do return some (← w.classes.isSubtype (.type t) p)) = Except.ok (some b)
    rw [h]
    rfl
  rw [checkRequirements, bind_of_ok (meets_of_answer hmeets)]
  cases b
  · rfl
  · rfl

/-- A type that does not derive from a protocol meets it exactly if it provides every member that the protocol declares,
except those that look like names of how classes are kept; otherwise the check fails for the protocol.  Such names aside,
what a class declares is what its body binds and annotates. -/
theorem checkRequirements_protocol (call : Call) (w : World) (t p : ClassRef)
    (hprotocol : w.classes.isProtocol p = true) (hapart : p ∉ w.classes.order t) :
    ((checkRequirements call (.type t) [.type p] w).1 = .ok () ↔
      ∀ n, w.classes.Declares p n → w.classes.Provided t n ∨ Hierarchy.PassedOver n) ∧
    ((∃ n, w.classes.Declares p n ∧ ¬ w.classes.Provided t n ∧ ¬ Hierarchy.PassedOver n) →
      checkRequirements call (.type t) [.type p] w =
        (.error (RequirementError.unsatisfied (.type t) (.type p)).raised, w)) ∧
    ∀ (h h' : Hierarchy) (d : Draft) (c : ClassRef), h.create d = .ok (h', c) → ∀ n, ¬ Hierarchy.PassedOver n →
      (n ∈ h'.ownNames c ↔ n ∈ d.body.map Prod.fst ∨ n ∈ d.hints) := by
  have hcheck := checkRequirements_of_isSubtype call (Hierarchy.isSubtype_of_not_mem_order hprotocol hapart)
  refine ⟨?_, ?_, fun h h' d c hcreate n hn => Hierarchy.mem_ownNames_create hcreate hn⟩
  · rw [hcheck, ← Hierarchy.provides_iff]
    cases w.classes.provides (.type t) p <;> simp
  · rintro ⟨n, hdeclares, hprovided, hpassed⟩
    have hfails : w.classes.provides (.type t) p = false := by
      rw [← Bool.not_eq_true, Hierarchy.provides_iff]
      intro hall
      exact (hall n hdeclares).elim hprovided hpassed
    rw [hcheck, hfails]
    rfl

theorem checkRequirements_protocol_named :
    Labels.classes.isProtocol Labels.named = true ∧ Labels.named ∉ Labels.classes.order Labels.label ∧
    Labels.named ∉ Labels.classes.order Labels.box ∧
    (checkRequirements (callAt 1) (.type Labels.label) [.type Labels.named] { classes := Labels.classes }).1 = .ok () ∧
    checkRequirements (callAt 1) (.type Labels.box) [.type Labels.named] { classes := Labels.classes } =
      (.error (RequirementError.unsatisfied (.type Labels.box) (.type Labels.named)).raised,
        { classes := Labels.classes }) := by
  have hprotocol : Labels.classes.isProtocol Labels.named = true := by decide
  have hlabel : Labels.named ∉ Labels.classes.order Labels.label := by decide
  have hbox : Labels.named ∉ Labels.classes.order Labels.box := by decide
  have hpasses := checkRequirements_protocol (callAt 1) { classes := Labels.classes } _ _ hprotocol hlabel
  have hfails := checkRequirements_protocol (callAt 1) { classes := Labels.classes } _ _ hprotocol hbox
  refine ⟨hprotocol, hlabel, hbox, hpasses.1.mpr ?_, hfails.2.1 ⟨"name", by decide, by decide, ?_⟩⟩
  · exact Hierarchy.provides_iff.mp (by decide)
  · rw [← Hierarchy.isBookkeeping_iff]
    decide

/-- A protocol whose body binds a special method is met by a class that does not have it. -/
theorem checkRequirements_misses_special :
    "__len__" ∈ Labels.sizedDraft.body.map Prod.fst ∧ Labels.classes.Declares Labels.sized "__len__" ∧
    Labels.classes.isProtocol Labels.sized = true ∧ Labels.sized ∉ Labels.classes.order Labels.box ∧
    ¬ Labels.classes.Provided Labels.box "__len__" ∧
    (checkRequirements (callAt 1) (.type Labels.box) [.type Labels.sized] { classes := Labels.classes }).1 = .ok () := by
  refine ⟨by decide, by decide, by decide, by decide, by decide, ?_⟩
  have hsubtype : Labels.classes.isSubtype (.type Labels.box) Labels.sized = .ok true := rfl
  rw [checkRequirements_of_isSubtype _ hsubtype]
  rfl

/-! ## Derived types -/

/-- Every hierarchy that a program builds is coherent.  In a coherent hierarchy a type that derives from a protocol
provides all that the protocol declares, so that looking at the order first does not change whether a protocol is met;
and requirements that are types, passed by a type, are passed by every class that derives from it. -/
theorem requirements_inherited :
    (∀ h, Hierarchy.Built h → h.Coherent) ∧
    ∀ h : Hierarchy, h.Coherent →
      (∀ t p, p ∈ h.order t → h.provides (.type t) p = true ∧ ∀ n, h.Declares p n → h.Provided t n) ∧
      (∀ t p, h.isProtocol p = true → h.isSubtype (.type t) p = .ok (h.provides (.type t) p)) ∧
      ∀ (call : Call) (w : World) (v v' : Value) (c d : ClassRef) (rs : List Value), w.classes = h →
        v.origin = .type c → v'.origin = .type d → c ∈ h.order d → (∀ r ∈ rs, r.isTypeForm = true) →
        (checkRequirements call v rs w).1 = .ok () → (checkRequirements call v' rs w).1 = .ok () := by
  refine ⟨fun h hh => hh.coherent, fun h hh => ⟨?_, fun t p hp => hh.isSubtype_protocol hp, ?_⟩⟩
  · intro t p hp
    exact ⟨hh.provides_of_mem_order hp, fun n hn => hh.provided_of_declares hp hn⟩
  · intro call w v v' c d rs hw hv hv' hd hrs hpasses
    subst hw
    have hmet := (checkRequirements_iff hrs).mp hpasses
    refine (checkRequirements_iff hrs).mpr ?_
    intro r hr
    exact hh.meets?_derived (hrs r hr) hv hv' hd (hmet r hr)

theorem requirements_inherited_tag :
    Labels.classes.Coherent ∧ Labels.label ∈ Labels.classes.order Labels.tag ∧
    Labels.classes.isSubtype (.type Labels.tag) Labels.named =
      .ok (Labels.classes.provides (.type Labels.tag) Labels.named) ∧
    (checkRequirements (callAt 1) (.type Labels.label) [.type Labels.named, .applied (.type Labels.label) []]
      { classes := Labels.classes }).1 = .ok () ∧
    (checkRequirements (callAt 1) (.type Labels.tag) [.type Labels.named, .applied (.type Labels.label) []]
      { classes := Labels.classes }).1 = .ok () := by
  have hcoherent : Labels.classes.Coherent := Hierarchy.coherent_of_classes (by decide) (by decide)
  have hderives : Labels.label ∈ Labels.classes.order Labels.tag := by decide
  have hpasses : (checkRequirements (callAt 1) (.type Labels.label)
      [.type Labels.named, .applied (.type Labels.label) []] { classes := Labels.classes }).1 = .ok () := rfl
  obtain ⟨-, hshortcut, hinherited⟩ := requirements_inherited.2 Labels.classes hcoherent
  refine ⟨hcoherent, hderives, hshortcut _ _ (by decide), hpasses, ?_⟩
  exact hinherited _ _ _ _ _ _ _ rfl rfl rfl hderives (by decide) hpasses

end Conformance
