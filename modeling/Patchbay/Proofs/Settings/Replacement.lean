import Patchbay.Settings.Template

/-!
# Replacing a pattern in a text

One pass over a text, from left to right, that puts a new text wherever a pattern stands. It leaves
alone every stretch in which the pattern does not start. What it puts in is not looked at again, so
the pattern may stand there afterwards, also across an end of what was put in. It stands nowhere if
the new text shares no piece with it, and each pass makes the text longer if the new text is.
-/
namespace Patchbay.Template

variable {old new cs rest block : List Char} {c : Char} {fuel fuel' : Nat}

/-- The whole pass. -/
def replaced (old new cs : List Char) : List Char :=
  replaceAll old new cs.length cs

/-- The pattern starts nowhere in the block if the block is followed by `rest`. -/
def Inert (old block rest : List Char) : Prop :=
  ∀ pre post, block = pre ++ post → post ≠ [] → ¬ old <+: post ++ rest

/-- More fuel than characters changes nothing. -/
theorem replaceAll_congr (hold : old ≠ []) (h : cs.length ≤ fuel) (h' : cs.length ≤ fuel') :
    replaceAll old new fuel cs = replaceAll old new fuel' cs := by
  induction fuel generalizing cs fuel' with
  | zero =>
      rw [List.length_eq_zero_iff.mp (Nat.le_zero.mp h)]
      cases fuel' <;> rfl
  | succ fuel ih =>
      cases cs with
      | nil => cases fuel' <;> rfl
      | cons c rest =>
          rw [List.length_cons] at h h'
          obtain ⟨fuel', rfl⟩ := Nat.exists_eq_add_of_le' (Nat.lt_of_lt_of_le (Nat.succ_pos _) h')
          have hdrop : ((c :: rest).drop old.length).length ≤ rest.length := by
            have hpos := List.length_pos_iff.mpr hold
            rw [List.length_drop, List.length_cons]
            omega
          have hhit : replaceAll old new fuel ((c :: rest).drop old.length) =
              replaceAll old new fuel' ((c :: rest).drop old.length) := ih (by omega) (by omega)
          have hmiss : replaceAll old new fuel rest = replaceAll old new fuel' rest :=
            ih (by omega) (by omega)
          rw [replaceAll, replaceAll, hhit, hmiss]

theorem replaced_append (hold : old ≠ []) (rest : List Char) :
    replaced old new (old ++ rest) = new ++ replaced old new rest := by
  obtain ⟨c, tail, rfl⟩ := List.exists_cons_of_ne_nil hold
  have hhit : (c :: tail).isPrefixOf (c :: (tail ++ rest)) :=
    List.isPrefixOf_iff_prefix.mpr (List.prefix_append _ _)
  rw [replaced, List.cons_append, List.length_cons, replaceAll, if_pos hhit, ← List.cons_append,
    List.drop_left, replaced]
  refine congrArg _ (replaceAll_congr hold ?_ (Nat.le_refl _))
  rw [List.length_append]
  exact Nat.le_add_left _ _

theorem replaced_cons (h : ¬ old <+: c :: rest) :
    replaced old new (c :: rest) = c :: replaced old new rest := by
  rw [replaced, List.length_cons, replaceAll,
    if_neg (by rwa [List.isPrefixOf_iff_prefix]), ← replaced]

/-- A pass either finds the pattern or goes on by one character. -/
theorem scan_induction (hold : old ≠ []) {motive : List Char → Prop} (nil : motive [])
    (hit : ∀ rest, motive rest → motive (old ++ rest))
    (miss : ∀ c rest, ¬ old <+: c :: rest → motive rest → motive (c :: rest))
    (cs : List Char) : motive cs := by
  generalize hn : cs.length = n
  induction n using Nat.strongRecOn generalizing cs with
  | ind n ih =>
      subst hn
      by_cases hpre : old <+: cs
      · obtain ⟨rest, rfl⟩ := hpre
        have hlt : rest.length < (old ++ rest).length := by
          have hpos := List.length_pos_iff.mpr hold
          rw [List.length_append]
          omega
        exact hit rest (ih _ hlt rest rfl)
      · cases cs with
        | nil => exact nil
        | cons c rest => exact miss c rest hpre (ih _ (Nat.lt_succ_self _) rest rfl)

theorem inert_nil : Inert old [] rest := by
  intro pre post hsplit hpost
  exact absurd (List.append_eq_nil_iff.mp hsplit.symm).2 hpost

theorem inert_cons_iff {tail : List Char} :
    Inert old (c :: tail) rest ↔ ¬ old <+: c :: (tail ++ rest) ∧ Inert old tail rest := by
  constructor
  · intro h
    exact ⟨h [] (c :: tail) rfl (List.cons_ne_nil _ _), fun pre post hsplit hpost =>
      h (c :: pre) post (by rw [hsplit, List.cons_append]) hpost⟩
  · intro h pre post hsplit hpost
    cases pre with
    | nil =>
        rw [← List.nil_append post, ← hsplit]
        exact h.1
    | cons a pre => exact h.2 pre post (List.cons.inj hsplit).2 hpost

theorem replaced_inert (h : Inert old block rest) :
    replaced old new (block ++ rest) = block ++ replaced old new rest := by
  induction block with
  | nil => rfl
  | cons c tail ih =>
      obtain ⟨hhead, htail⟩ := inert_cons_iff.mp h
      rw [List.cons_append, replaced_cons hhead, ih htail, List.cons_append]

theorem infix_of_inert (h : Inert old block rest) (hfound : old <:+: block ++ rest) :
    old <:+: rest := by
  induction block with
  | nil => exact hfound
  | cons c tail ih =>
      obtain ⟨hhead, htail⟩ := inert_cons_iff.mp h
      exact ih htail ((List.infix_cons_iff.mp hfound).resolve_left hhead)

/-- A text in blocks, of which each is the pattern or one in which it does not start. -/
theorem replaced_flatMap {α : Type} (hold : old ≠ []) {f g : α → List Char} {ps : List α}
    (h : ∀ pre p post, ps = pre ++ p :: post →
      f p = old ∧ g p = new ∨ g p = f p ∧ Inert old (f p) (post.flatMap f)) :
    replaced old new (ps.flatMap f) = ps.flatMap g := by
  induction ps with
  | nil => rfl
  | cons p ps ih =>
      have hrest := ih fun pre q post hsplit =>
        h (p :: pre) q post (by rw [hsplit, List.cons_append])
      rw [List.flatMap_cons, List.flatMap_cons, ← hrest]
      rcases h [] p ps rfl with ⟨hf, hg⟩ | ⟨hg, hinert⟩
      · rw [hf, hg, replaced_append hold]
      · rw [hg, replaced_inert hinert]

/-- Where the new text begins no end of the pattern, a pass lets no end of it begin anew. -/
theorem prefix_of_prefix_replaced (hold : old ≠ [])
    (hnew : ∀ t z, t <:+ old → t ≠ [] → ¬ t <+: new ++ z) {t : List Char} (ht : t <:+ old)
    (h : t <+: replaced old new cs) : t <+: cs := by
  induction cs using scan_induction hold generalizing t with
  | nil => exact h
  | hit rest ih =>
      rw [replaced_append hold] at h
      cases t with
      | nil => exact List.nil_prefix
      | cons a tail => exact absurd h (hnew _ _ ht (List.cons_ne_nil _ _))
  | miss c rest hmiss ih =>
      rw [replaced_cons hmiss] at h
      cases t with
      | nil => exact List.nil_prefix
      | cons a tail =>
          obtain ⟨rfl, htail⟩ := List.cons_prefix_cons.mp h
          exact List.cons_prefix_cons.mpr
            ⟨rfl, ih ((List.suffix_cons a tail).trans ht) htail⟩

/-- The pattern stands nowhere after a pass if it starts nowhere in the new text and the new text
begins no end of it. -/
theorem not_infix_replaced (hold : old ≠ []) (hinert : ∀ z, Inert old new z)
    (hnew : ∀ t z, t <:+ old → t ≠ [] → ¬ t <+: new ++ z) (cs : List Char) :
    ¬ old <:+: replaced old new cs := by
  induction cs using scan_induction hold with
  | nil => exact fun h => hold (List.infix_nil.mp h)
  | hit rest ih =>
      rw [replaced_append hold]
      exact fun h => ih (infix_of_inert (hinert _) h)
  | miss c rest hmiss ih =>
      rw [replaced_cons hmiss]
      intro h
      rcases List.infix_cons_iff.mp h with hhead | htail
      · rw [← replaced_cons hmiss] at hhead
        exact hmiss (prefix_of_prefix_replaced hold hnew List.suffix_rfl hhead)
      · exact ih htail

theorem length_le_replaced (hold : old ≠ []) (h : old.length ≤ new.length) (cs : List Char) :
    cs.length ≤ (replaced old new cs).length := by
  induction cs using scan_induction hold with
  | nil => exact Nat.le_refl _
  | hit rest ih =>
      rw [replaced_append hold, List.length_append, List.length_append]
      omega
  | miss c rest hmiss ih =>
      rw [replaced_cons hmiss, List.length_cons, List.length_cons]
      omega

theorem length_lt_replaced (hold : old ≠ []) (h : old.length < new.length)
    (hfound : old <:+: cs) : cs.length < (replaced old new cs).length := by
  induction cs using scan_induction hold with
  | nil => exact absurd (List.infix_nil.mp hfound) hold
  | hit rest ih =>
      have hrest := length_le_replaced hold (Nat.le_of_lt h) rest
      rw [replaced_append hold, List.length_append, List.length_append]
      omega
  | miss c rest hmiss ih =>
      have hrest := ih ((List.infix_cons_iff.mp hfound).resolve_left hmiss)
      rw [replaced_cons hmiss, List.length_cons, List.length_cons]
      omega

end Patchbay.Template
