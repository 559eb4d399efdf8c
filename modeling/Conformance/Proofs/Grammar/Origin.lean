import Conformance.Proofs.Grammar.Arguments
import Conformance.Proofs.Grammar.Inversion
import Conformance.Source.Reference

/-!
# Where expressions come from

The expressions that generated code takes over stand in a source text as arguments of a call, as bases of a class, as
members of a tuple, or after an arrow.  Each of these places is followed by a comma, a closing parenthesis or a colon,
so what stands there can be moved (`Excerpt.fits`).

The lemmas here go from the tree of an expression back to how its parts were read: through the parentheses around it,
the last step of a call and the list of its arguments.
-/

namespace Conformance.Source

open SyntaxTree

/-- Whether the expression is a generator without parentheses of its own. -/
def SyntaxTree.isBareGenerator (e : SyntaxTree) : Bool :=
  e.is .generator && !e.children.head?.any (isOperator "(")

/-- An argument gives a value by a keyword, or by position if it is no generator without parentheses of its own. -/
def SyntaxTree.Gives (a v : SyntaxTree) : Prop :=
  (a.argument? = some (.positional v) ∧ v.isBareGenerator = false) ∨ ∃ n, a.argument? = some (.keyword n v)

namespace Grammar

open Peg Nonterminal

/-- An expression that was read up to the end of an argument. -/
def Excerpt (e : SyntaxTree) : Prop :=
  ∃ ts, EndsArgument ts ∧ (∀ t ∈ e.leaves ++ ts, t.Proper) ∧
    read (sym namedExpression) (e.leaves ++ ts) = some ([e], ts)

/-! ## Moving -/

/-- Whether what is matched is a word, and not this one. -/
def isOtherWord (w : String) : Match → Bool
  | .word v => v != w
  | .name => false
  | .kind _ => false

/-- Where a word stands, no other word does. -/
theorem not_startsWith_of_word {w : String} {t : Token} {ts : List Token} (h : (Match.word w).accepts t = true)
    {ms : List Match} (hms : ms.all (isOtherWord w) = true) : ¬StartsWith ms (t :: ts) := by
  rintro ⟨t', rest, heq, m, hm, haccepts⟩
  cases heq
  have hother := List.all_eq_true.mp hms m hm
  cases m with
  | word v =>
    cases word_unique h haccepts
    simp [isOtherWord] at hother
  | name => cases hother
  | kind k => cases hother

/-- The words that go on with a name. -/
def nameContinuations : List Match := [.word ".", .word "(", .word "["] ++ continuations

section
variable {w : String} {n t : Token} {ts : List Token}

/-- A name in front of a word that goes on with nothing is a primary by itself. -/
theorem read_primary_name (hn : Match.name.accepts n = true) (ht : (Match.word w).accepts t = true)
    (hw : nameContinuations.all (isOtherWord w) = true) :
    read (sym primary) (n :: t :: ts) = some ([.leaf n], t :: ts) ∧ Quiet (t :: ts) := by
  have hquiet : ∀ ms, ms ⊆ nameContinuations → ¬StartsWith ms (t :: ts) := fun ms hms =>
    not_startsWith_of_word ht (List.all_eq_true.mpr fun m hm => List.all_eq_true.mp hw m (hms hm))
  refine ⟨?_, hquiet _ (by decide)⟩
  rw [read_primary, read_atom_of_name hn, Option.map_some,
    extendAll_stop (runStep_primary_eq_none (hquiet _ (by decide)))]

theorem read_expression_name (hn : Match.name.accepts n = true) (hproper : n.Proper)
    (ht : (Match.word w).accepts t = true) (hw : nameContinuations.all (isOtherWord w) = true) :
    read (sym expression) (n :: t :: ts) = some ([.leaf n], t :: ts) := by
  obtain ⟨hprimary, hquiet⟩ := read_primary_name hn ht hw
  refine read_expression_of_primary (fun u hu => ?_) hprimary hquiet
  cases hu
  exact hproper

theorem read_namedExpression_name (hn : Match.name.accepts n = true) (hproper : n.Proper)
    (ht : (Match.word w).accepts t = true) (hw : nameContinuations.all (isOtherWord w) = true) (hsign : w ≠ ":=") :
    read (sym namedExpression) (n :: t :: ts) = some ([.leaf n], t :: ts) := by
  obtain ⟨hprimary, hquiet⟩ := read_primary_name hn ht hw
  have hnot : ¬StartsWith [.word ":="] (t :: ts) := not_startsWith_of_word ht (by simpa [isOtherWord] using hsign.symm)
  refine read_namedExpression_of_primary (fun u hu => ?_) hprimary hquiet hnot
  cases hu
  exact hproper

end

theorem EndsArgument.not_word {w : String} {t : Token} {ts : List Token} (h : EndsArgument (t :: ts))
    (hw : w ∉ [",", ")"]) : (Match.word w).accepts t = false := by
  rw [Bool.eq_false_iff]
  intro haccepts
  simp only [Match.accepts, Bool.and_eq_true, beq_iff_eq] at haccepts
  rcases h with ⟨u, rest, heq, -, htext⟩ | ⟨u, rest, heq, -, htext⟩ <;> cases heq <;>
    rw [← haccepts.2, htext] at hw <;> simp at hw

/-- What is read up to the end of an argument is no keyword argument. -/
theorem read_keywordAhead_eq_none {ts rest : List Token} {xs : List SyntaxTree} (hproper : ∀ t ∈ ts.head?, t.Proper)
    (h : read (sym namedExpression) ts = some (xs, rest)) (hrest : EndsArgument rest) :
    read keywordAhead ts = none := by
  cases hread : read keywordAhead ts with
  | none => rfl
  | some r =>
    obtain ⟨n, t, rfl, hname, hword⟩ := read_nameAhead_eq_some hread
    rw [read_namedExpression_name hname (hproper n rfl) hword (by decide) (by decide)] at h
    cases h
    rw [hrest.not_word (by decide)] at hword
    cases hword

/-- An expression that is read up to the end of an argument is an expression of the highest level. -/
theorem read_namedExpression_of_endsArgument {ts rest : List Token} {xs : List SyntaxTree}
    (hproper : ∀ t ∈ ts.head?, t.Proper) (h : read (sym expression) ts = some (xs, rest)) (hrest : EndsArgument rest) :
    read (sym namedExpression) ts = some (xs, rest) := by
  have hahead : read (seq [name, word ":="]) ts = none := by
    cases hread : read (seq [name, word ":="]) ts with
    | none => rfl
    | some r =>
      obtain ⟨n, t, rfl, hname, hword⟩ := read_nameAhead_eq_some hread
      rw [read_expression_name hname (hproper n rfl) hword (by decide)] at h
      cases h
      rw [hrest.not_word (by decide)] at hword
      cases hword
  have hsign : ¬StartsWith [.word ":="] rest := by
    rcases hrest with hcomma | hclose
    · exact not_startsWith_of_starts hcomma (by decide)
    · exact not_startsWith_of_starts hclose (by decide)
  exact read_namedExpression_of_expression (read_walrus_of_ahead hahead) h hsign

/-- An excerpt can stand as a positional argument. -/
theorem Excerpt.fits {e : SyntaxTree} (h : Excerpt e) : Fits e := by
  obtain ⟨xs, hxs, hproper, hread⟩ := h
  have hmoved : ∀ {ts}, EndsArgument ts → read (sym namedExpression) (e.leaves ++ ts) = some ([e], ts) := by
    intro ts hts
    have hmove : ∀ {left right : String}, left ∈ [",", ")"] → right ∈ [",", ")"] → Starts left xs → Starts right ts →
        read (sym namedExpression) (e.leaves ++ ts) = some ([e], ts) := fun hleft hright hx hy =>
      read_moved (argumentBorder_sound hleft hright) (by decide) rfl rfl hproper hx hy hread
    rcases hxs with hx | hx <;> rcases hts with hy | hy <;> exact hmove (by decide) (by decide) hx hy
  have hleaves : e.leaves ≠ [] := by
    intro hnil
    have hlt := (read_progresses _ _ _ _ hread).2 rfl
    rw [hnil] at hlt
    exact Nat.lt_irrefl _ hlt
  have hhead : ∀ ts, ∀ t ∈ (e.leaves ++ ts).head?, t.Proper := by
    intro ts t ht
    obtain ⟨u, us, hcons⟩ := List.exists_cons_of_ne_nil hleaves
    rw [hcons] at ht
    cases ht
    exact hproper t (by simp [hcons])
  exact ⟨fun t ht => hproper t (List.mem_append_left _ ht), hmoved,
    fun hts => read_keywordAhead_eq_none (hhead _) (hmoved hts) hts⟩

/-! ## Arguments of a call -/

section
variable {ts rest : List Token} {xs : List SyntaxTree}

theorem repeatAll_mem {p : E} {x : SyntaxTree} (hx : x ∈ (repeatAll p ts).1) :
    ∃ us ys mid, us <:+ ts ∧ read p us = some (ys, mid) ∧ x ∈ ys := by
  induction hlength : ts.length using Nat.strongRecOn generalizing ts with
  | ind n ih =>
    cases hread : read p ts with
    | none =>
      rw [repeatAll_stop hread] at hx
      cases hx
    | some r =>
      obtain ⟨ys, mid⟩ := r
      by_cases hlt : mid.length < ts.length
      · rw [repeatAll_step hread hlt] at hx
        rcases List.mem_append.mp hx with hx | hx
        · exact ⟨ts, ys, mid, List.suffix_refl ts, hread, hx⟩
        · obtain ⟨us, zs, last, hus, hread', hx⟩ := ih mid.length (by omega) hx rfl
          exact ⟨us, zs, last, hus.trans (read_suffix hread), hread', hx⟩
      · -- Without progress nothing is kept.
        have hstop : repeatAll p ts = ([], ts) := by
          unfold repeatAll
          cases ts.length with
          | zero => rfl
          | succ m => simp only [runMany, hread, if_neg hlt]
        rw [hstop] at hx
        cases hx

/-- One of the trees of a repetition was read by what is repeated. -/
theorem many_mem {p : E} {x : SyntaxTree} (h : read (many p) ts = some (xs, rest)) (hx : x ∈ xs) (hp : Small p)
    (hone : p.trees treesOf = some 1) : ∃ us mid, us <:+ ts ∧ Took p us [x] mid := by
  rw [read_repeated _ hp, Option.some.injEq] at h
  have hxs : (repeatAll p ts).1 = xs := by rw [h]
  obtain ⟨us, ys, mid, hus, hread, hmem⟩ := repeatAll_mem (hxs ▸ hx)
  obtain ⟨y, rfl⟩ := read_single hone hread
  exact ⟨us, mid, hus, took_of_read hp (List.mem_singleton.mp hmem ▸ hread)⟩

/-- The forms of arguments. -/
def argumentForms : List E := [positional, starArgument, keywordArgument, doubleStarArgument]

theorem moreArguments_mem {x : SyntaxTree} (h : Took (seq moreArguments) ts xs rest) (hx : x ∈ xs) :
    ∃ us mid, us <:+ ts ∧ Took (alt argumentForms) us [x] mid := by
  obtain ⟨ys, mid, _, rfl, hplain, -, zs, mid', ws, rfl, hnamed, -, hmapped⟩ := h
  simp only [List.mem_append] at hx
  rcases hx with hx | hx | hx
  · obtain ⟨us, last, hus, hread⟩ := many_mem hplain hx (by decide) (by decide)
    exact ⟨us, last, hus, hread.imp_right .inl⟩
  · obtain ⟨us, last, hus, hread | hread⟩ := many_mem hnamed hx (by decide) (by decide)
    · exact ⟨us, last, hus.trans (read_suffix hplain), .inr (.inr (.inl hread))⟩
    · exact ⟨us, last, hus.trans (read_suffix hplain), .inr (.inl hread)⟩
  · obtain ⟨us, last, hus, hread⟩ := many_mem hmapped hx (by decide) (by decide)
    exact ⟨us, last, (hus.trans (read_suffix hnamed)).trans (read_suffix hplain), .inr (.inr hread)⟩

theorem callArguments_mem {x : SyntaxTree} (h : read (sym callArguments) ts = some (xs, rest)) (hx : x ∈ xs) :
    ∃ us mid, us <:+ ts ∧ Took (alt (firstPositional :: argumentForms)) us [x] mid := by
  obtain ⟨ys, mid, zs, rfl, hread, hfirst, hmore⟩ := took_rule h
  rcases List.mem_append.mp hx with hx | hx
  · rcases hfirst with ⟨cs, rfl, hcs⟩ | ⟨cs, rfl, hcs⟩ | ⟨rfl, -⟩
    · cases List.mem_singleton.mp hx
      exact ⟨ts, mid, List.suffix_refl ts, .inl ⟨cs, rfl, hcs⟩⟩
    · cases List.mem_singleton.mp hx
      exact ⟨ts, mid, List.suffix_refl ts, .inr (.inr (.inl ⟨cs, rfl, hcs⟩))⟩
    · cases hx
  · obtain ⟨us, last, hus, hform⟩ := moreArguments_mem hmore hx
    exact ⟨us, last, hus.trans (read_suffix hread), .inr hform⟩

theorem operator_of_accepts {w : String} {t : Token} (ht : t.Proper) (hw : w ∈ punctuation)
    (h : (Match.word w).accepts t = true) : t.kind = .operator ∧ t.text = w := by
  simp only [Match.accepts, Bool.and_eq_true, Bool.or_eq_true, beq_iff_eq] at h
  obtain ⟨hkind, htext⟩ := h
  refine ⟨hkind.resolve_right fun hname => ?_, htext⟩
  exact ht hname (htext ▸ hw)

/-- Where an argument ends, a comma or the closing parenthesis follows. -/
theorem endsArgument_of_took (hproper : ∀ t ∈ ts, t.Proper) (h : Took argumentEnd ts xs rest) : EndsArgument ts := by
  rcases h with ⟨t, rfl, ht, -⟩ | ⟨-, -, _, mid, t, rfl, ht, -⟩
  · exact .inl ⟨t, rest, rfl, operator_of_accepts (hproper t List.mem_cons_self) (by decide) ht⟩
  · exact .inr ⟨t, mid, rfl, operator_of_accepts (hproper t List.mem_cons_self) (by decide) ht⟩

theorem excerpt_of_read {e : SyntaxTree} (hproper : ∀ t ∈ ts, t.Proper)
    (h : read (sym namedExpression) ts = some ([e], rest)) (hrest : EndsArgument rest) : Excerpt e := by
  refine ⟨rest, hrest, ?_⟩
  rw [read_leaves h]
  exact ⟨hproper, h⟩

/-- A positional argument is an excerpt. -/
theorem positional_excerpt {a v : SyntaxTree} (hproper : ∀ t ∈ ts, t.Proper) (h : Took positional ts [a] rest)
    (hv : a.argument? = some (.positional v)) : Excerpt v := by
  obtain ⟨_, heq, _, _, _, rfl, -, ⟨rfl, rfl⟩, es, mid, _, rfl, hnamed, -, _, _, _, rfl, -, ⟨rfl, rfl⟩, hend⟩ := h
  obtain ⟨e, rfl⟩ := read_single rfl hnamed
  cases heq
  cases hv
  exact excerpt_of_read hproper hnamed
    (endsArgument_of_took (fun t ht => hproper t ((read_suffix hnamed).subset ht)) hend)

/-- A single token that is an expression is no bracket and no comma. -/
theorem not_punctuation_of_read {t : Token} (hproper : ∀ t ∈ ts, t.Proper)
    (h : read (sym namedExpression) ts = some ([.leaf t], rest)) :
    ∀ s ∈ ["(", ")", "[", "]", ","], (leaf t).isOperator s = false := by
  have hts : ts = t :: rest := (read_leaves h).symm
  obtain ⟨us, hus, hbalanced⟩ := read_balanced false (p := sym namedExpression) rfl hproper h
  obtain rfl : us = [t] := List.append_cancel_right (hus.symm.trans hts)
  have hfirst : StartsWith operandFirsts ts := read_firsts (p := sym namedExpression) rfl h
  intro s hs
  rw [Bool.eq_false_iff]
  intro hop
  simp only [isOperator, Bool.and_eq_true, beq_iff_eq] at hop
  obtain ⟨hkind, rfl⟩ := hop
  have hnest : nestWord false [] t.text = some [] := by
    have htoken : nestToken false [] t = some [] := by simpa [Balanced, walk_cons] using hbalanced
    rwa [nestToken_word (nestToken_proper htoken) (by simp [Token.nests, hkind]) (by simp)] at htoken
  simp only [List.mem_cons, List.not_mem_nil, or_false] at hs
  rcases hs with hs | hs | hs | hs | hs
  case inr.inr.inr.inr =>
    refine not_startsWith_of_starts ⟨t, rest, hts, hkind, hs⟩ ?_ hfirst
    decide
  all_goals
    rw [hs] at hnest
    cases hnest

/-- A first argument is an excerpt, unless it is a generator that has no parentheses of its own. -/
theorem firstPositional_excerpt {a v : SyntaxTree} (hproper : ∀ t ∈ ts, t.Proper)
    (h : Took firstPositional ts [a] rest) (hv : a.argument? = some (.positional v)) (hbare : v.isBareGenerator = false) :
    Excerpt v := by
  obtain ⟨_, heq, _, _, _, rfl, -, ⟨rfl, rfl⟩, es, mid, _, rfl, hvalue, ⟨ys, mid', hnamed, hsteps⟩, _, _, _, rfl, -,
    ⟨rfl, rfl⟩, hend⟩ := h
  have hends := endsArgument_of_took (fun t ht => hproper t ((read_suffix hvalue).subset ht)) hend
  obtain ⟨y, rfl⟩ := read_single rfl hnamed
  rcases extendAll_last (by decide) hsteps with ⟨rfl, rfl⟩ | ⟨s, hs, ws, us, zs, rfl, -, -, hws⟩
  · cases heq
    cases hv
    exact excerpt_of_read hproper hnamed hends
  · -- Whether it is the first step or a later one, what the generator starts with is no parenthesis.
    cases List.mem_singleton.mp hs
    cases heq
    cases hv
    rw [Bool.eq_false_iff] at hbare
    refine absurd ?_ hbare
    rcases hws with rfl | ⟨k, cs, rfl⟩
    · cases y with
      | node k cs => rfl
      | leaf t =>
        have hopen := not_punctuation_of_read hproper hnamed "(" (by decide)
        simp [isBareGenerator, SyntaxTree.is, SyntaxTree.children, hopen]
    · rfl

/-- The value of a keyword argument is an excerpt. -/
theorem keyword_excerpt {a v : SyntaxTree} {n : Token} (hproper : ∀ t ∈ ts, t.Proper)
    (h : Took keywordArgument ts [a] rest) (hv : a.argument? = some (.keyword n v)) : Excerpt v := by
  obtain ⟨_, heq, _, _, _, rfl, -, ⟨n', rfl, -, rfl⟩, _, us, _, rfl, -, ⟨sign, rfl, -, rfl⟩, es, mid, _, rfl, hvalue, -,
    hend⟩ := h
  obtain ⟨e, rfl⟩ := read_single rfl hvalue
  cases heq
  cases hv
  have hus : ∀ t ∈ us, t.Proper := (List.forall_mem_cons.mp (List.forall_mem_cons.mp hproper).2).2
  have hends := endsArgument_of_took (fun t ht => hus t ((read_suffix hvalue).subset ht)) hend
  exact excerpt_of_read hus
    (read_namedExpression_of_endsArgument (fun t ht => hus t (List.mem_of_mem_head? ht)) hvalue hends) hends

theorem argument?_eq_positional {a v : SyntaxTree} (h : a.argument? = some (.positional v)) :
    ∃ more, a = .node .arg (v :: more) := by
  unfold argument? at h
  split at h <;> cases h
  exact ⟨_, rfl⟩

theorem argument?_eq_keyword {a v : SyntaxTree} {n : Token} (h : a.argument? = some (.keyword n v)) :
    ∃ sign more, a = .node .keywordArg (.leaf n :: sign :: v :: more) := by
  unfold argument? at h
  split at h <;> cases h
  exact ⟨_, _, rfl⟩

/-- A call's argument was read by one of the forms of arguments. -/
theorem argument_mem {e a : SyntaxTree} (hproper : ∀ t ∈ ts, t.Proper)
    (h : read (sym namedExpression) ts = some ([e], rest)) (ha : a ∈ e.arguments) :
    ∃ us mid, us <:+ ts ∧ Took (alt (firstPositional :: argumentForms)) us [a] mid := by
  unfold SyntaxTree.arguments at ha
  split at ha
  · next f cs hcore =>
    obtain ⟨hmem, hsome⟩ := List.mem_filter.mp ha
    obtain ⟨us, rest', hus, hprimary⟩ := read_core (by decide) hcore hproper h
    obtain ⟨opening, closing, as, vs, hvs, rfl, has⟩ := read_call hprimary
    have hleaf : ∀ t, a ≠ .leaf t := by
      rintro t rfl
      cases hsome
    have hmem : a ∈ as := by simpa [hleaf] using hmem
    obtain ⟨ws, mid, hws, hread⟩ := callArguments_mem has hmem
    exact ⟨ws, mid, (hws.trans hvs).trans hus, hread⟩
  · cases ha

/-- What is given to a decorator or another call is an excerpt. -/
theorem argument_excerpt {e a v : SyntaxTree} (hproper : ∀ t ∈ ts, t.Proper)
    (h : read (sym namedExpression) ts = some ([e], rest)) (ha : a ∈ e.arguments) (hv : a.Gives v) : Excerpt v := by
  obtain ⟨us, mid, hus, hread⟩ := argument_mem hproper h ha
  have hproper' : ∀ t ∈ us, t.Proper := fun t ht => hproper t (hus.subset ht)
  rcases hv with ⟨hv, hbare⟩ | ⟨n, hv⟩
  · obtain ⟨more, rfl⟩ := argument?_eq_positional hv
    rcases hread with hread | hread | ⟨_, heq, -⟩ | ⟨_, heq, -⟩ | ⟨_, heq, -⟩
    · exact firstPositional_excerpt hproper' hread hv hbare
    · exact positional_excerpt hproper' hread hv
    all_goals cases heq
  · obtain ⟨sign, more, rfl⟩ := argument?_eq_keyword hv
    rcases hread with ⟨_, heq, -⟩ | ⟨_, heq, -⟩ | ⟨_, heq, -⟩ | hread | ⟨_, heq, -⟩
    case inr.inr.inr.inr.inl => exact keyword_excerpt hproper' hread hv
    all_goals cases heq

/-- What stands in the list of bases of a class by position is an excerpt. -/
theorem base_excerpt {a v : SyntaxTree} (hproper : ∀ t ∈ ts, t.Proper)
    (h : read (sym arguments) ts = some (xs, rest)) (ha : a ∈ xs) (hv : a.argument? = some (.positional v)) :
    Excerpt v := by
  obtain ⟨more, rfl⟩ := argument?_eq_positional hv
  obtain ⟨us, mid, hus, hread | ⟨_, heq, -⟩ | ⟨_, heq, -⟩ | ⟨_, heq, -⟩⟩ := moreArguments_mem (took_rule h) ha
  · exact positional_excerpt (fun t ht => hproper t (hus.subset ht)) hread hv
  all_goals cases heq

/-! ## Members of a tuple -/

/-- Whether the tree is a member of a list, and no punctuation. -/
def isItem (c : SyntaxTree) : Bool :=
  !(c.isOperator "(" || c.isOperator ")" || c.isOperator "[" || c.isOperator "]" || c.isOperator ",")

theorem isItem_node (k : Kind) (cs : List SyntaxTree) : isItem (.node k cs) = true := rfl

theorem isItem_of_read {e : SyntaxTree} (hproper : ∀ t ∈ ts, t.Proper)
    (h : read (sym namedExpression) ts = some ([e], rest)) : isItem e = true := by
  cases e with
  | node k cs => rfl
  | leaf t =>
    have hnot := not_punctuation_of_read hproper h
    simp [isItem, hnot "(" (by decide), hnot ")" (by decide), hnot "[" (by decide), hnot "]" (by decide),
      hnot "," (by decide)]

theorem not_isItem_of_accepts {w : String} {t : Token} (ht : t.Proper) (hw : w ∈ ["(", ")", ","])
    (h : (Match.word w).accepts t = true) : isItem (.leaf t) = false := by
  have hpunctuation : w ∈ punctuation := by
    simp only [List.mem_cons, List.not_mem_nil, or_false] at hw
    rcases hw with rfl | rfl | rfl <;> decide
  obtain ⟨hkind, rfl⟩ := operator_of_accepts ht hpunctuation h
  simp only [List.mem_cons, List.not_mem_nil, or_false] at hw
  rcases hw with hw | hw | hw <;> simp [isItem, isOperator, hkind, hw]

/-- The only further member of a tuple is an excerpt. -/
theorem moreStarNamed_excerpt {x : SyntaxTree} (hproper : ∀ t ∈ ts, t.Proper)
    (h : Took moreStarNamed ts xs rest) (hitems : xs.filter isItem = [x]) (hx : x.is .starred = false)
    (hrest : Starts ")" rest) : Excerpt x := by
  obtain ⟨ys, mid, _, rfl, hfirst, -, ms, mid', os, rfl, hmany, -, hopt⟩ | ⟨rfl, -⟩ := h
  · have hmidProper : ∀ t ∈ mid, t.Proper := fun t ht => hproper t ((read_suffix hfirst).subset ht)
    have hcomma : ∀ {t us}, mid = t :: us → (Match.word ",").accepts t = true → EndsArgument mid := by
      rintro t us rfl ht
      exact .inl ⟨t, us, rfl, operator_of_accepts (hmidProper t List.mem_cons_self) (by decide) ht⟩
    have hends : EndsArgument mid := by
      cases hstep : read (seq [word ",", sym starNamed]) mid with
      | some r =>
        obtain ⟨zs, last⟩ := r
        obtain ⟨_, _, _, -, -, ⟨t, rfl, ht, -⟩, -⟩ := took_of_read (by decide) hstep
        exact hcomma rfl ht
      | none =>
        have hnothing := (read_repeated _ (by decide) mid).symm.trans hmany
        rw [repeatAll_stop hstep] at hnothing
        cases hnothing
        obtain ⟨t, rfl, ht, -⟩ | ⟨-, rfl⟩ := hopt
        · exact hcomma rfl ht
        · exact .inr hrest
    obtain ⟨cs, rfl, -⟩ | hread := took_rule hfirst
    · rw [List.singleton_append, List.filter_cons_of_pos (isItem_node _ _)] at hitems
      obtain ⟨rfl, -⟩ := List.cons.inj hitems
      cases hx
    · obtain ⟨y, rfl⟩ := read_single rfl hread
      rw [List.singleton_append, List.filter_cons_of_pos (isItem_of_read hproper hread)] at hitems
      obtain ⟨rfl, -⟩ := List.cons.inj hitems
      exact excerpt_of_read hproper hread hends
  · cases hitems

/-- The members of a pair are excerpts. -/
theorem pair_excerpts {v first second : SyntaxTree} (hproper : ∀ t ∈ ts, t.Proper)
    (h : read (sym namedExpression) ts = some ([v], rest)) (hv : v.core.is .tuple = true)
    (hitems : v.core.items = [first, second]) (hfirst : first.is .starred = false)
    (hsecond : second.is .starred = false) : Excerpt first ∧ Excerpt second := by
  obtain ⟨children, hcore⟩ : ∃ cs, v.core = .node .tuple cs := by
    cases hnode : v.core with
    | leaf t =>
      rw [hnode] at hv
      cases hv
    | node k cs =>
      rw [hnode] at hv
      exact ⟨cs, by rw [beq_iff_eq.mp hv]⟩
  obtain ⟨us, rest', hus, hprimary⟩ := read_core (by decide) hcore hproper h
  obtain ⟨opening, closing, us', cs, rfl, hopening, hclosing, hclosed, hinside, heq⟩ :=
    read_parens_eq_some (read_parens_of_primary (by decide) hprimary)
  obtain ⟨hkind, hchildren⟩ := SyntaxTree.node.inj (List.cons.inj heq).1
  have husProper : ∀ t ∈ opening :: us', t.Proper := fun t ht => hproper t (hus.subset ht)
  have hinsideProper : ∀ t ∈ us', t.Proper := fun t ht => husProper t (List.mem_cons_of_mem _ ht)
  have hrestProper : ∀ t ∈ closing :: rest', t.Proper := fun t ht => hinsideProper t (hclosed.subset ht)
  have hcs : cs.filter isItem = [first, second] := by
    have hlist : children.filter isItem = [first, second] := by
      rw [hcore] at hitems
      exact hitems
    rw [hchildren, List.filter_cons_of_neg, List.filter_append, List.filter_cons_of_neg, List.filter_nil,
      List.append_nil] at hlist
    · exact hlist
    · simp [not_isItem_of_accepts (hrestProper closing List.mem_cons_self) (by decide) hclosing]
    · simp [not_isItem_of_accepts (husProper opening List.mem_cons_self) (by decide) hopening]
  rcases hinside with hyield | ⟨es, mid, zs, rfl, hnamed, -, hcomp | ⟨_, mid', more, rfl, -, ⟨comma, rfl, hcomma, rfl⟩,
    hmembers⟩ | ⟨rfl, -⟩⟩ | ⟨_, _, _, rfl, -, ⟨ys, rfl, -⟩, -⟩ | ⟨rfl, -⟩
  · obtain ⟨ys, rfl, -⟩ := took_rule hyield
    cases hcs
  · -- A list with a `for` is a generator.
    obtain ⟨_, _, more, rfl, -, ⟨parts, rfl, -⟩, -⟩ := took_rule hcomp
    rw [Shape.kind, if_pos (by simp [SyntaxTree.is])] at hkind
    cases hkind
  · obtain ⟨e, rfl⟩ := read_single rfl hnamed
    have hmidProper : ∀ t ∈ comma :: mid', t.Proper := fun t ht =>
      hinsideProper t ((read_suffix hnamed).subset ht)
    obtain ⟨hcommaProper, hmoreProper⟩ := List.forall_mem_cons.mp hmidProper
    have hskip : (leaf comma :: more).filter isItem = more.filter isItem :=
      List.filter_cons_of_neg (by simp [not_isItem_of_accepts hcommaProper (by decide) hcomma])
    rw [List.singleton_append, List.singleton_append, List.filter_cons_of_pos (isItem_of_read hinsideProper hnamed), hskip]
      at hcs
    obtain ⟨rfl, hmoreItems⟩ := List.cons.inj hcs
    refine ⟨excerpt_of_read hinsideProper hnamed (.inl ⟨comma, mid', rfl,
      operator_of_accepts hcommaProper (by decide) hcomma⟩), ?_⟩
    exact moreStarNamed_excerpt hmoreProper hmembers hmoreItems hsecond
      ⟨closing, rest', rfl, operator_of_accepts (hrestProper closing List.mem_cons_self) (by decide) hclosing⟩
  · obtain ⟨e, rfl⟩ := read_single rfl hnamed
    rw [List.append_nil, List.filter_cons_of_pos (isItem_of_read hinsideProper hnamed)] at hcs
    cases hcs
  · rw [List.singleton_append, List.filter_cons_of_pos (isItem_node _ _)] at hcs
    obtain ⟨rfl, -⟩ := List.cons.inj hcs
    cases hfirst
  · cases hcs

end

end Grammar

end Conformance.Source
