import Mathlib.Data.List.Basic
import Patchbay.Proofs.Settings.Replacement

/-!
# References in settings

A text is read as characters and references, each reference from the leftmost place on where one
can start. To expand it is meant to put the value of its variable in the place of each reference.
The references are replaced one after the other in a text that changes, so this is what happens for
texts with at most one reference and for no others, if every value is allowed. It also happens
where no value and no name has a dollar sign before an opening brace or at its end, and no dollar
sign stands before a reference.
-/
namespace Patchbay.Template

/-- Some characters, but no closing brace. -/
def IsName (name : String) : Prop :=
  name.toList ≠ [] ∧ '\x7d' ∉ name.toList

instance (name : String) : Decidable (IsName name) :=
  inferInstanceAs (Decidable (_ ∧ _))

inductive Part where
  | char (c : Char)
  | ref (name : String)

/-- The parts that a text is read as. A character is one only where no reference starts. -/
inductive Splits : List Char → List Part → Prop where
  | nil : Splits [] []
  | ref {name rest ps} : IsName name → Splits rest ps →
      Splits (reference name ++ rest) (.ref name :: ps)
  | char {c rest ps} : (∀ name, IsName name → ¬ reference name <+: c :: rest) → Splits rest ps →
      Splits (c :: rest) (.char c :: ps)

/-- The names of the references, in the order of the text. -/
def refs (ps : List Part) : List String :=
  ps.filterMap fun
    | .char _ => none
    | .ref name => some name

def Part.fill (values : String → String) : Part → List Char
  | .char c => [c]
  | .ref name => (values name).toList

/-- The text with the values in the place of the references. -/
def substitute (values : String → String) (ps : List Part) : String :=
  String.ofList (ps.flatMap (Part.fill values))

/-- After each dollar sign there is another character, which is no opening brace. -/
def Tame (cs : List Char) : Prop :=
  ∀ pre post, cs = pre ++ '$' :: post → ∃ c rest, post = c :: rest ∧ c ≠ '\x7b'

/-- No value makes anything look like a reference. -/
structure Quiet (values : String → String) (ps : List Part) : Prop where
  values : ∀ name ∈ refs ps, Tame (values name).toList
  names : ∀ name ∈ refs ps, Tame (name.toList ++ ['\x7d'])
  dollars : ∀ pre name post, ps ≠ pre ++ .char '$' :: .ref name :: post

variable {cs rest : List Char} {ps : List Part} {name other : String} {fuel : Nat}

theorem reference_eq (name : String) (rest : List Char) :
    reference name ++ rest = '$' :: '\x7b' :: (name.toList ++ '\x7d' :: rest) := by
  simp [reference]

theorem reference_ne_nil (name : String) : reference name ≠ [] :=
  List.cons_ne_nil _ _

theorem takeWhile_name {bs : List Char} (h : '\x7d' ∉ bs) (rest : List Char) :
    (bs ++ '\x7d' :: rest).takeWhile (· ≠ '\x7d') = bs := by
  have hall : ∀ c ∈ bs, decide (c ≠ '\x7d') = true := by
    intro c hc
    exact decide_eq_true fun heq => h (heq ▸ hc)
  rw [List.takeWhile_append_of_pos hall, List.takeWhile_cons_of_neg (by simp), List.append_nil]

theorem reference_inj (hname : IsName name) (hother : IsName other) {rest' : List Char}
    (h : reference name ++ rest = reference other ++ rest') : name = other ∧ rest = rest' := by
  rw [reference_eq, reference_eq] at h
  have htail := (List.cons.inj (List.cons.inj h).2).2
  have hsame : name.toList = other.toList := by
    rw [← takeWhile_name hname.2 rest, htail, takeWhile_name hother.2]
  rw [hsame] at htail
  exact ⟨String.toList_inj.mp hsame, (List.cons.inj (List.append_cancel_left htail)).2⟩

theorem name?_reference (h : IsName name) (rest : List Char) :
    name? (reference name ++ rest) = some (name.toList, rest) := by
  obtain ⟨c, tail, hcons⟩ := List.exists_cons_of_ne_nil h.1
  rw [reference_eq, name?, takeWhile_name h.2, List.drop_left, hcons]
  rfl

theorem name?_eq_none (h : ∀ name, IsName name → ¬ reference name <+: cs) : name? cs = none := by
  unfold name?
  split
  · rename_i rest
    dsimp only
    split
    · rename_i c tail after hname hafter
      obtain ⟨rest', hrest⟩ := List.takeWhile_prefix (· ≠ '\x7d') (l := rest)
      generalize hbs : rest.takeWhile (· ≠ '\x7d') = bs at hname hafter hrest
      have hclosing : '\x7d' ∉ bs := by
        intro hmem
        rw [← hbs] at hmem
        have hopen := List.all_eq_true.mp List.all_takeWhile _ hmem
        simp at hopen
      rw [← hrest, List.drop_left] at hafter
      have hstarts : IsName (String.ofList bs) := by
        rw [IsName, String.toList_ofList]
        exact ⟨hname ▸ List.cons_ne_nil c tail, hclosing⟩
      refine absurd ⟨after, ?_⟩ (h _ hstarts)
      rw [reference_eq, String.toList_ofList, ← hrest, hafter]
    · rfl
  · rfl

theorem names_of_splits (h : Splits cs ps) (hfuel : cs.length ≤ fuel) :
    names fuel cs = refs ps := by
  induction h generalizing fuel with
  | nil => cases fuel <;> rfl
  | @ref name rest ps hname hrest ih =>
      have hhead := name?_reference hname rest
      rw [reference_eq, List.length_cons, List.length_cons, List.length_append,
        List.length_cons] at hfuel
      obtain ⟨fuel, rfl⟩ := Nat.exists_eq_add_of_le' (Nat.lt_of_lt_of_le (Nat.succ_pos _) hfuel)
      rw [reference_eq] at hhead ⊢
      rw [names, hhead, refs, List.filterMap_cons, ← refs]
      dsimp only
      rw [String.ofList_toList, ih (by omega)]
  | @char c rest ps hchar hrest ih =>
      rw [List.length_cons] at hfuel
      obtain ⟨fuel, rfl⟩ := Nat.exists_eq_add_of_le' (Nat.lt_of_lt_of_le (Nat.succ_pos _) hfuel)
      rw [names, name?_eq_none hchar, refs, List.filterMap_cons, ← refs]
      exact ih (by omega)

theorem exists_splits (cs : List Char) : ∃ ps, Splits cs ps := by
  generalize hn : cs.length = n
  induction n using Nat.strongRecOn generalizing cs with
  | ind n ih =>
      subst hn
      by_cases hstart : ∃ name, IsName name ∧ reference name <+: cs
      · obtain ⟨name, hname, rest, rfl⟩ := hstart
        have hlt : rest.length < (reference name ++ rest).length := by
          have hpos := List.length_pos_iff.mpr (reference_ne_nil name)
          rw [List.length_append]
          omega
        obtain ⟨ps, hps⟩ := ih _ hlt rest rfl
        exact ⟨_, .ref hname hps⟩
      · cases cs with
        | nil => exact ⟨_, .nil⟩
        | cons c rest =>
            obtain ⟨ps, hps⟩ := ih _ (Nat.lt_succ_self _) rest rfl
            exact ⟨_, .char (fun name hname hpre => hstart ⟨name, hname, hpre⟩) hps⟩

theorem Splits.unique {qs : List Part} (h : Splits cs ps) (h' : Splits cs qs) : qs = ps := by
  induction h generalizing qs with
  | nil =>
      generalize hcs : ([] : List Char) = cs at h'
      cases h' with
      | nil => rfl
      | ref hname hrest =>
          exact absurd hcs.symm (List.append_ne_nil_of_left_ne_nil (reference_ne_nil _) _)
      | char hchar hrest => cases hcs
  | @ref name rest ps hname hrest ih =>
      generalize hcs : reference name ++ rest = cs at h'
      cases h' with
      | nil => exact absurd hcs (List.append_ne_nil_of_left_ne_nil (reference_ne_nil _) _)
      | ref hother hrest' =>
          obtain ⟨rfl, rfl⟩ := reference_inj hname hother hcs
          rw [ih hrest']
      | char hchar hrest' => exact absurd ⟨rest, hcs⟩ (hchar name hname)
  | @char c rest ps hchar hrest ih =>
      generalize hcs : c :: rest = cs at h'
      cases h' with
      | nil => cases hcs
      | ref hother hrest' => exact absurd ⟨_, hcs.symm⟩ (hchar _ hother)
      | char hchar' hrest' =>
          cases hcs
          rw [ih hrest']

/-- What the references of some names are replaced by, name by name. -/
def replaceEach (values : String → String) (ns : List String) (cs : List Char) : List Char :=
  ns.foldl (fun cs name => replaced (reference name) (values name).toList cs) cs

variable {lookup : String → Option String} {values : String → String} {ns : List String}

theorem expand_of_unset {text : String} (h : Splits text.toList ps)
    (hunset : (refs ps).find? (fun name => lookup name = none) = some name) :
    expand lookup text = .error (.missingVariable name) := by
  unfold expand
  dsimp only
  rw [names_of_splits h (Nat.le_refl _)]
  generalize hstep : (fun (cs : List Char) (name : String) => _) = step
  generalize refs ps = ns at hunset
  generalize text.toList = cs
  have hfails : ns.foldlM step cs = .error (.missingVariable name) := by
    induction ns generalizing cs with
    | nil => cases hunset
    | cons n ns ih =>
        rw [List.foldlM_cons, ← hstep]
        cases hn : lookup n with
        | none =>
            rw [List.find?_cons_of_pos (by simp [hn])] at hunset
            rw [Option.some.inj hunset] at hn ⊢
            simp only [hn]
            rfl
        | some value =>
            rw [List.find?_cons_of_neg (by simp [hn])] at hunset
            simp only [hn]
            rw [hstep]
            exact ih hunset _
  rw [hfails]
  rfl

theorem expand_of_set {text : String} (h : Splits text.toList ps)
    (hset : ∀ name ∈ refs ps, lookup name = some (values name)) :
    expand lookup text = .ok (String.ofList (replaceEach values (refs ps) text.toList)) := by
  unfold expand
  dsimp only
  rw [names_of_splits h (Nat.le_refl _)]
  generalize hstep : (fun (cs : List Char) (name : String) => _) = step
  generalize refs ps = ns at hset
  generalize text.toList = cs
  have hruns : ns.foldlM step cs = .ok (replaceEach values ns cs) := by
    induction ns generalizing cs with
    | nil => rfl
    | cons n ns ih =>
        obtain ⟨hn, hns⟩ := List.forall_mem_cons.mp hset
        rw [List.foldlM_cons, ← hstep]
        simp only [hn]
        rw [hstep]
        exact ih hns _
  rw [hruns]
  rfl

/-- The parts of a text in which the references of some names are replaced. -/
def Part.fillKnown (known : List String) (values : String → String) : Part → List Char
  | .char c => [c]
  | .ref name => if name ∈ known then (values name).toList else reference name

variable {known : List String} {pre post : List Part} {c : Char} {bs : List Char}

theorem mem_refs : name ∈ refs ps ↔ .ref name ∈ ps := by
  rw [refs, List.mem_filterMap]
  constructor
  · rintro ⟨p, hp, heq⟩
    cases p with
    | char c => cases heq
    | ref other => exact Option.some.inj heq ▸ hp
  · exact fun h => ⟨_, h, rfl⟩

theorem Splits.at (h : Splits cs (pre ++ post)) : ∃ rest, Splits rest post := by
  induction pre generalizing cs with
  | nil => exact ⟨cs, h⟩
  | cons p pre ih =>
      cases h with
      | ref hname hrest => exact ih hrest
      | char hchar hrest => exact ih hrest

theorem Splits.isName (h : Splits cs ps) (hname : name ∈ refs ps) : IsName name := by
  obtain ⟨pre, post, rfl⟩ := List.append_of_mem (mem_refs.mp hname)
  obtain ⟨rest, hrest⟩ := h.at
  cases hrest with
  | ref hname hrest => exact hname

theorem Splits.flatMap_eq (h : Splits cs ps) {f : Part → List Char} (hchar : ∀ c, f (.char c) = [c])
    (href : ∀ name ∈ refs ps, f (.ref name) = reference name) : ps.flatMap f = cs := by
  induction h with
  | nil => rfl
  | ref hname hrest ih =>
      rw [List.flatMap_cons, href _ (mem_refs.mpr List.mem_cons_self)]
      rw [ih fun name hmem => href name (mem_refs.mpr (List.mem_cons_of_mem _ (mem_refs.mp hmem)))]
  | char hplain hrest ih =>
      rw [List.flatMap_cons, hchar,
        ih fun name hmem => href name (mem_refs.mpr (List.mem_cons_of_mem _ (mem_refs.mp hmem)))]
      rfl

/-- A pass for one name, where its reference starts nowhere else. -/
theorem replaced_fillKnown
    (h : ∀ pre p post, ps = pre ++ p :: post → p ≠ .ref name ∨ name ∈ known →
      Inert (reference name) (p.fillKnown known values)
        (post.flatMap (Part.fillKnown known values))) :
    replaced (reference name) (values name).toList (ps.flatMap (Part.fillKnown known values)) =
      ps.flatMap (Part.fillKnown (name :: known) values) := by
  refine replaced_flatMap (reference_ne_nil name) fun pre p post hsplit => ?_
  have hother := h pre p post hsplit
  cases p with
  | char c => exact Or.inr ⟨rfl, hother (Or.inl (fun heq => by cases heq))⟩
  | ref other =>
      by_cases hhit : other = name ∧ name ∉ known
      · obtain ⟨rfl, hnew⟩ := hhit
        refine Or.inl ⟨if_neg hnew, if_pos List.mem_cons_self⟩
      · have hkept : other = name → name ∈ known := fun heq =>
          Decidable.byContradiction fun hnew => hhit ⟨heq, hnew⟩
        refine Or.inr ⟨?_, hother ?_⟩
        · by_cases hknown : other ∈ known
          · exact (if_pos (List.mem_cons_of_mem _ hknown)).trans (if_pos hknown).symm
          · have hmiss : other ∉ name :: known := fun hmem =>
              (List.mem_cons.mp hmem).elim (fun heq => hknown (heq ▸ hkept heq)) hknown
            exact (if_neg hmiss).trans (if_neg hknown).symm
        · by_cases heq : other = name
          · exact Or.inr (hkept heq)
          · exact Or.inl fun hsame => heq (Part.ref.inj hsame)

theorem inert_of_tame (h : Tame bs) (name : String) (rest : List Char) :
    Inert (reference name) bs rest := by
  intro pre post hsplit hpost hpre
  obtain ⟨a, tail, rfl⟩ := List.exists_cons_of_ne_nil hpost
  obtain ⟨ha, htail⟩ := List.cons_prefix_cons.mp hpre
  obtain ⟨c, after, rfl, hc⟩ := h pre tail (ha ▸ hsplit)
  exact hc (List.cons_prefix_cons.mp htail).1.symm

theorem inert_reference (hname : IsName name) (hother : IsName other) (hne : name ≠ other)
    (htame : Tame (other.toList ++ ['\x7d'])) (rest : List Char) :
    Inert (reference name) (reference other) rest := by
  refine inert_cons_iff.mpr ⟨?_, inert_cons_iff.mpr ⟨?_, inert_of_tame htame name rest⟩⟩
  · intro hpre
    obtain ⟨after, hafter⟩ := hpre
    exact hne (reference_inj hname hother hafter).1
  · intro hpre
    have hdollar := (List.cons_prefix_cons.mp hpre).1
    simp at hdollar

theorem Splits.closing_mem (h : Splits cs ps) (hname : name ∈ refs ps) : '\x7d' ∈ cs := by
  induction h with
  | nil => cases hname
  | @ref other rest ps hother hrest ih =>
      rw [reference_eq]
      simp
  | @char c rest ps hplain hrest ih => exact List.mem_cons_of_mem _ (ih hname)

theorem Splits.char_inv (h : Splits (c :: rest) ps) (hc : c ≠ '$') :
    ∃ ps', ps = .char c :: ps' ∧ Splits rest ps' := by
  generalize hcs : c :: rest = cs at h
  cases h with
  | nil => cases hcs
  | ref hname hps =>
      rw [reference_eq] at hcs
      exact absurd (List.cons.inj hcs).1 hc
  | char hplain hps =>
      obtain ⟨rfl, rfl⟩ := List.cons.inj hcs
      exact ⟨_, rfl, hps⟩

/-- Where no reference starts, none starts after others were replaced, unless a dollar sign stands
right before one. -/
theorem Splits.not_prefix_of_char {f : Part → List Char} (h : Splits cs (.char c :: post))
    (hchar : ∀ c, f (.char c) = [c]) (hquiet : c = '$' → ∀ other ps, post ≠ .ref other :: ps)
    (hname : IsName name) : ¬ reference name <+: c :: post.flatMap f := by
  intro hpre
  obtain ⟨hc, hbrace⟩ := List.cons_prefix_cons.mp hpre
  cases h with
  | @char _ rest _ hplain hpost =>
      cases hpost with
      | nil => exact absurd (List.prefix_nil.mp hbrace) (List.cons_ne_nil _ _)
      | ref hother hps => exact hquiet hc.symm _ _ rfl
      | @char c' rest ps hplain' hps =>
          rw [List.flatMap_cons, hchar] at hbrace
          obtain ⟨hc', hclosing⟩ := List.cons_prefix_cons.mp hbrace
          by_cases hclose : '\x7d' ∈ rest
          · obtain ⟨bs, after, rfl, hbs⟩ := List.eq_append_cons_of_mem hclose
            cases bs with
            | nil =>
                obtain ⟨ps', rfl, hps'⟩ := hps.char_inv (by decide)
                obtain ⟨a, tail, hcons⟩ := List.exists_cons_of_ne_nil hname.1
                rw [hcons, List.flatMap_cons, hchar] at hclosing
                refine hname.2 ?_
                rw [hcons, (List.cons_prefix_cons.mp hclosing).1]
                exact List.mem_cons_self
            | cons b bs =>
                have hstarts : IsName (String.ofList (b :: bs)) := by
                  rw [IsName, String.toList_ofList]
                  exact ⟨List.cons_ne_nil b bs, hbs⟩
                refine hplain _ hstarts ⟨after, ?_⟩
                rw [reference_eq, String.toList_ofList, hc, hc']
          · -- No reference follows, so nothing was put in.
            rw [hps.flatMap_eq hchar fun other hother => absurd (hps.closing_mem hother) hclose]
              at hclosing
            exact hclose (hclosing.subset (List.mem_append_right _ List.mem_cons_self))

theorem Quiet.replaced_fillKnown (hq : Quiet values ps) (h : Splits cs ps)
    (hname : name ∈ refs ps) :
    replaced (reference name) (values name).toList (ps.flatMap (Part.fillKnown known values)) =
      ps.flatMap (Part.fillKnown (name :: known) values) := by
  refine Template.replaced_fillKnown fun pre p post hsplit hother => ?_
  cases p with
  | char c =>
      subst hsplit
      obtain ⟨rest, hrest⟩ := h.at
      refine inert_cons_iff.mpr ⟨?_, inert_nil⟩
      refine hrest.not_prefix_of_char (fun _ => rfl) (fun hc other ps hpost => ?_) (h.isName hname)
      subst hc hpost
      exact hq.dollars pre other ps rfl
  | ref other =>
      have hmem : other ∈ refs ps := mem_refs.mpr (by simp [hsplit])
      rw [Part.fillKnown]
      by_cases hknown : other ∈ known
      · rw [if_pos hknown]
        exact inert_of_tame (hq.values other hmem) _ _
      · rw [if_neg hknown]
        refine inert_reference (h.isName hname) (h.isName hmem) (fun heq => ?_)
          (hq.names other hmem) _
        subst heq
        exact hother.elim (fun hne => hne rfl) hknown

theorem Quiet.replaceEach (hq : Quiet values ps) (h : Splits cs ps) (hns : ∀ n ∈ ns, n ∈ refs ps) :
    replaceEach values ns (ps.flatMap (Part.fillKnown known values)) =
      ps.flatMap (Part.fillKnown (ns.reverse ++ known) values) := by
  induction ns generalizing known with
  | nil => rfl
  | cons n ns ih =>
      obtain ⟨hn, hrest⟩ := List.forall_mem_cons.mp hns
      rw [Template.replaceEach, List.foldl_cons, hq.replaced_fillKnown h hn, ← Template.replaceEach,
        ih hrest, List.reverse_cons, List.append_assoc]
      rfl

theorem Splits.flatMap_fillKnown_nil (h : Splits cs ps) (values : String → String) :
    ps.flatMap (Part.fillKnown [] values) = cs :=
  h.flatMap_eq (fun _ => rfl) fun _ _ => by rw [Part.fillKnown, if_neg List.not_mem_nil]

theorem flatMap_fillKnown (h : ∀ name ∈ refs ps, name ∈ known) :
    ps.flatMap (Part.fillKnown known values) = ps.flatMap (Part.fill values) := by
  refine List.flatMap_congr fun p hp => ?_
  cases p with
  | char c => rfl
  | ref name => exact if_pos (h name (mem_refs.mpr hp))

theorem Quiet.replaceEach_refs (hq : Quiet values ps) (h : Splits cs ps) :
    Template.replaceEach values (refs ps) cs = ps.flatMap (Part.fill values) := by
  have hall : Template.replaceEach values (refs ps) (ps.flatMap (Part.fillKnown [] values)) =
      ps.flatMap (Part.fillKnown ((refs ps).reverse ++ []) values) :=
    hq.replaceEach h fun _ hn => hn
  rw [h.flatMap_fillKnown_nil] at hall
  rw [hall]
  exact flatMap_fillKnown fun name hname =>
    List.mem_append_left _ (List.mem_reverse.mpr hname)

theorem Splits.replaced_eq (h : Splits cs ps) (hname : name ∈ refs ps)
    (hall : ∀ other ∈ refs ps, other = name) (values : String → String) :
    replaced (reference name) (values name).toList cs = ps.flatMap (Part.fill values) := by
  have hpass : replaced (reference name) (values name).toList
      (ps.flatMap (Part.fillKnown [] values)) =
        ps.flatMap (Part.fillKnown [name] values) := by
    refine replaced_fillKnown fun pre p post hsplit hother => ?_
    cases p with
    | char c =>
        have hsplits := h
        rw [hsplit] at hsplits
        obtain ⟨rest, hrest⟩ := hsplits.at
        cases hrest with
        | char hchar hpost =>
            rw [hpost.flatMap_fillKnown_nil]
            exact inert_cons_iff.mpr ⟨hchar name (h.isName hname), inert_nil⟩
    | ref other =>
        have hsame := hall other (mem_refs.mpr (by simp [hsplit]))
        subst hsame
        exact hother.elim (fun hne => absurd rfl hne) (fun hnil => absurd hnil List.not_mem_nil)
  rw [h.flatMap_fillKnown_nil] at hpass
  rw [hpass]
  exact flatMap_fillKnown fun other hother => by rw [hall other hother]; exact List.mem_cons_self

theorem Splits.replaceEach_of_le_one (h : Splits cs ps) (hle : (refs ps).length ≤ 1)
    (values : String → String) :
    replaceEach values (refs ps) cs = ps.flatMap (Part.fill values) := by
  cases hrefs : refs ps with
  | nil =>
      have hnone : ∀ name ∈ refs ps, name ∈ [] := fun name hname => hrefs ▸ hname
      rw [← flatMap_fillKnown hnone, h.flatMap_fillKnown_nil]
      rfl
  | cons name more =>
      rw [hrefs, List.length_cons] at hle
      have hmore : more = [] := List.length_eq_zero_iff.mp (by omega)
      subst hmore
      refine h.replaced_eq ?_ (fun other hother => ?_) values
      · rw [hrefs]
        exact List.mem_cons_self
      · rw [hrefs] at hother
        exact List.mem_singleton.mp hother

theorem infix_flatMap {f : Part → List Char} {p : Part} (hp : p ∈ ps) : f p <:+: ps.flatMap f := by
  obtain ⟨pre, post, rfl⟩ := List.append_of_mem hp
  refine ⟨pre.flatMap f, post.flatMap f, ?_⟩
  rw [List.flatMap_append, List.flatMap_cons, List.append_assoc]

theorem length_le_replaceEach
    (h : ∀ name ∈ ns, (reference name).length ≤ (values name).toList.length) (cs : List Char) :
    cs.length ≤ (replaceEach values ns cs).length := by
  induction ns generalizing cs with
  | nil => exact Nat.le_refl _
  | cons n ns ih =>
      obtain ⟨hn, hns⟩ := List.forall_mem_cons.mp h
      exact Nat.le_trans (length_le_replaced (reference_ne_nil n) hn cs) (ih hns _)

theorem eq_of_closing (hname : IsName name) {front back : List Char}
    (h : front ++ '\x7d' :: back = reference name) :
    front = '$' :: '\x7b' :: name.toList ∧ back = [] := by
  rcases List.eq_nil_or_concat back with rfl | ⟨middle, last, rfl⟩
  · exact ⟨(List.append_inj' h rfl).1, rfl⟩
  · have hend : front ++ '\x7d' :: middle ++ [last] = reference name := by
      rw [← h, List.concat_eq_append, List.append_assoc]
      rfl
    have hclosing : '\x7d' ∈ '$' :: '\x7b' :: name.toList := by
      rw [← (List.append_inj' hend rfl).1]
      simp
    exact absurd hclosing (by simpa using hname.2)

/-- A value of a closing brace after a character that is not the last of the name: no reference of
the name is left, and none is made anew. -/
theorem not_infix_reference (hname : IsName name) (hc : c ≠ '\x7d')
    (hlast : name.toList.getLast? ≠ some c) (cs : List Char) :
    ¬ reference name <:+: replaced (reference name) [c, '\x7d'] cs := by
  refine not_infix_replaced (reference_ne_nil name) (fun z => ?_) (fun t z ht hne hpre => ?_) cs
  · refine inert_cons_iff.mpr ⟨fun hpre => ?_, inert_cons_iff.mpr ⟨fun hpre => ?_, inert_nil⟩⟩
    · have hbrace := (List.cons_prefix_cons.mp (List.cons_prefix_cons.mp hpre).2).1
      simp at hbrace
    · have hdollar := (List.cons_prefix_cons.mp hpre).1
      simp at hdollar
  · -- An end of the reference that begins with the value has the last character of the name.
    obtain ⟨a, tail, rfl⟩ := List.exists_cons_of_ne_nil hne
    obtain ⟨rfl, htail⟩ := List.cons_prefix_cons.mp hpre
    obtain ⟨front, hfront⟩ := ht
    cases tail with
    | nil => exact hc (List.cons.inj (List.append_inj' hfront rfl).2).1
    | cons b tail =>
        obtain ⟨rfl, -⟩ := List.cons_prefix_cons.mp htail
        have hclosed : front ++ [a] ++ '\x7d' :: tail = reference name := by
          rw [List.append_assoc]
          exact hfront
        have hopen : ['$', '\x7b'] ++ name.toList = front ++ [a] :=
          (eq_of_closing hname hclosed).1.symm
        refine hlast ?_
        rw [← List.getLast?_append_of_ne_nil ['$', '\x7b'] hname.1, hopen, List.getLast?_concat]

/-- A value that holds its own reference is put in more than once. -/
theorem Splits.replaceEach_ne_of_one_name (h : Splits cs ps) (hmany : 2 ≤ (refs ps).length)
    (hall : ∀ other ∈ refs ps, other = name) {value : String}
    (hvalue : value.toList = reference name ++ ['x']) :
    replaceEach (fun _ => value) (refs ps) cs ≠ ps.flatMap (Part.fill fun _ => value) := by
  intro heq
  obtain ⟨first, second, more, hrefs⟩ :
      ∃ first second more, refs ps = first :: second :: more := by
    rcases hps : refs ps with _ | ⟨first, _ | ⟨second, more⟩⟩
    · simp [hps] at hmany
    · simp [hps] at hmany
    · exact ⟨first, second, more, rfl⟩
  obtain ⟨rfl, hall'⟩ := List.forall_mem_cons.mp (hrefs ▸ hall)
  obtain ⟨rfl, hmore⟩ := List.forall_mem_cons.mp hall'
  have hmem : second ∈ refs ps := by simp [hrefs]
  have hlonger : (reference second).length < value.toList.length := by
    rw [hvalue, List.length_append]
    exact Nat.lt_succ_self _
  have hfirst := h.replaced_eq hmem hall fun _ => value
  have hkept : reference second <:+: ps.flatMap (Part.fill fun _ => value) := by
    have hput := infix_flatMap (f := Part.fill fun _ => value) (mem_refs.mp hmem)
    rw [Part.fill, hvalue] at hput
    exact (List.prefix_append _ _).isInfix.trans hput
  -- The first pass is right, the second makes the text longer, and none makes it shorter.
  generalize ps.flatMap (Part.fill fun _ => value) = filled at heq hfirst hkept
  have hgrown := length_lt_replaced (reference_ne_nil second) hlonger hkept
  have hshort : ∀ other ∈ more, (reference other).length ≤ value.toList.length := by
    intro other hother
    rw [hmore other hother]
    exact Nat.le_of_lt hlonger
  have hrest : (replaced (reference second) value.toList filled).length ≤
      (replaceEach (fun _ => value) more
        (replaced (reference second) value.toList filled)).length :=
    length_le_replaceEach hshort _
  rw [hrefs, replaceEach, List.foldl_cons, List.foldl_cons, ← replaceEach, hfirst] at heq
  rw [heq] at hrest
  omega

theorem exists_replaceEach_ne_of_last {init : List String} (hsplit : refs ps = init ++ [name])
    (hname : IsName name) (hother : other ∈ refs ps) (hne : other ≠ name) :
    ∃ values, replaceEach values (refs ps) cs ≠ ps.flatMap (Part.fill values) := by
  obtain ⟨c, hc, hlast⟩ : ∃ c, c ≠ '\x7d' ∧ name.toList.getLast? ≠ some c := by
    by_cases ha : name.toList.getLast? = some 'a'
    · exact ⟨'b', by decide, by rw [ha]; decide⟩
    · exact ⟨'a', by decide, ha⟩
  refine ⟨fun other => String.ofList (if other = name then [c, '\x7d'] else reference name),
    fun heq => ?_⟩
  have hkept := infix_flatMap (f := Part.fill fun other =>
    String.ofList (if other = name then [c, '\x7d'] else reference name)) (mem_refs.mp hother)
  rw [← heq, hsplit, replaceEach, List.foldl_append, List.foldl_cons, List.foldl_nil] at hkept
  rw [Part.fill, if_neg hne, if_pos rfl, String.toList_ofList, String.toList_ofList] at hkept
  exact not_infix_reference hname hc hlast _ hkept

theorem Splits.exists_replaceEach_ne (h : Splits cs ps) (hmany : 2 ≤ (refs ps).length) :
    ∃ values, replaceEach values (refs ps) cs ≠ ps.flatMap (Part.fill values) := by
  rcases List.eq_nil_or_concat (refs ps) with hnil | ⟨init, name, hsplit⟩
  · rw [hnil] at hmany
    cases hmany
  · rw [List.concat_eq_append] at hsplit
    have hmem : name ∈ refs ps := by simp [hsplit]
    by_cases hall : ∀ other ∈ refs ps, other = name
    · exact ⟨_, h.replaceEach_ne_of_one_name hmany hall String.toList_ofList⟩
    · obtain ⟨other, hother, hne⟩ : ∃ other ∈ refs ps, other ≠ name := by
        simpa using hall
      exact exists_replaceEach_ne_of_last hsplit (h.isName hmem) hother hne

/-- Every text is read as characters and references in one way. If a variable is not set, the text
is refused for the first such reference. If all are set and the values are quiet, each reference is
replaced by its value and nothing else is changed. Without that this is so for all values exactly
in the texts with at most one reference. -/
theorem references_replaced_at_once (text : String) :
    ∃ ps, Splits text.toList ps ∧ (∀ qs, Splits text.toList qs → qs = ps) ∧
      (∀ lookup name, (refs ps).find? (fun other => lookup other = none) = some name →
        expand lookup text = .error (.missingVariable name)) ∧
      (∀ lookup values, (∀ name ∈ refs ps, lookup name = some (values name)) → Quiet values ps →
        expand lookup text = .ok (substitute values ps)) ∧
      ((∀ lookup values, (∀ name ∈ refs ps, lookup name = some (values name)) →
        expand lookup text = .ok (substitute values ps)) ↔ (refs ps).length ≤ 1) := by
  obtain ⟨ps, hps⟩ := exists_splits text.toList
  refine ⟨ps, hps, fun qs hqs => hps.unique hqs, fun lookup name => expand_of_unset hps,
    fun lookup values hset hquiet => ?_, fun hall => ?_, fun hle lookup values hset => ?_⟩
  · rw [expand_of_set hps hset, hquiet.replaceEach_refs hps, substitute]
  · refine Decidable.byContradiction fun hmany => ?_
    obtain ⟨values, hne⟩ := hps.exists_replaceEach_ne (Nat.lt_of_not_le hmany)
    have hset : ∀ name ∈ refs ps, some (values name) = some (values name) := fun _ _ => rfl
    have hsame := hall (fun name => some (values name)) values hset
    rw [expand_of_set hps hset, substitute] at hsame
    exact hne (String.ofList_injective (Except.ok.inj hsame))
  · rw [expand_of_set hps hset, hps.replaceEach_of_le_one hle, substitute]

/-- A value that holds a reference is expanded if the reference stands in the text after its own,
and is not if it stands there before. -/
theorem value_expanded_by_later_reference :
    let values (name : String) : String := if name = "A" then "$\x7bB\x7d" else "x"
    let lookup (name : String) := some (values name)
    Splits "$\x7bA\x7d$\x7bB\x7d".toList [.ref "A", .ref "B"] ∧
      substitute values [.ref "A", .ref "B"] = "$\x7bB\x7dx" ∧
      expand lookup "$\x7bA\x7d$\x7bB\x7d" = .ok "xx" ∧
      expand lookup "$\x7bB\x7d$\x7bA\x7d" = .ok "x$\x7bB\x7d" := by
  refine ⟨?_, rfl, rfl, rfl⟩
  have hA : IsName "A" := by decide
  have hB : IsName "B" := by decide
  exact .ref hA (.ref hB .nil)

end Patchbay.Template
