import Patchbay.Proofs.Session.Shared

/-!
# Rounds

In a cycle an endpoint makes the same call at each of some listed sessions, one after the other. As
no session is there twice, each of them is called in the state in which the round found it, and the
others do not notice.
-/
namespace Patchbay.Registry

/-- The same call at each of the sessions in turn. -/
def performEach (r : Registry) (c : SessionCall) (sessions : List Session) : Registry :=
  sessions.foldl (fun r s => r.perform s.id c) r

/-- The sessions are different ones, and each of them is as the registry has it. -/
structure Finds (r : Registry) (sessions : List Session) : Prop where
  ascending : r.Ascending
  distinct : (sessions.map (·.id)).Nodup
  found : ∀ s ∈ sessions, r.any? s.id = some s

variable {r : Registry} {c : SessionCall} {s : Session} {sessions : List Session} {id : Nat}

theorem Finds.tail (h : r.Finds (s :: sessions)) (c : SessionCall) :
    (r.perform s.id c).Finds sessions where
  ascending := h.ascending.step (.call s.id c)
  distinct := (List.nodup_cons.mp h.distinct).2
  found := by
    intro t ht
    have hnew : s.id ∉ sessions.map (·.id) := (List.nodup_cons.mp h.distinct).1
    have hne : s.id ≠ t.id := fun hsame => hnew (hsame ▸ List.mem_map_of_mem ht)
    rw [any?_perform h.ascending.numbered (h.found s List.mem_cons_self), if_neg hne]
    exact h.found t (List.mem_cons_of_mem _ ht)

theorem Finds.any?_performEach (h : r.Finds sessions) (c : SessionCall) (id : Nat) :
    (r.performEach c sessions).any? id =
      if id ∈ sessions.map (·.id) then (r.any? id).map fun s => (s.perform c).2.1
      else r.any? id := by
  induction sessions generalizing r with
  | nil => rfl
  | cons s rest ih =>
      have hs := h.found s List.mem_cons_self
      have hnew : s.id ∉ rest.map (·.id) := (List.nodup_cons.mp h.distinct).1
      have hrest : (r.performEach c (s :: rest)).any? id =
          ((r.perform s.id c).performEach c rest).any? id := rfl
      rw [hrest, ih (h.tail c), any?_perform h.ascending.numbered hs]
      by_cases hsame : s.id = id
      · subst hsame
        simp [hnew, hs]
      · simp [hsame, Ne.symm hsame]

/-- A call that ends no session changes nothing but the session. -/
theorem perform_rest (r : Registry) (id : Nat) (hc : ∀ s : Session, (s.perform c).2.2 = none) :
    r.perform id c = { r with sessions := (r.perform id c).sessions } := by
  rw [perform_eq]
  cases r.any? id with
  | none => rfl
  | some s => simp only [hc, settle, store]

theorem performEach_rest (r : Registry) (sessions : List Session)
    (hc : ∀ s : Session, (s.perform c).2.2 = none) :
    r.performEach c sessions = { r with sessions := (r.performEach c sessions).sessions } := by
  induction sessions generalizing r with
  | nil => rfl
  | cons s rest ih =>
      calc (r.perform s.id c).performEach c rest
          = { r.perform s.id c with
              sessions := ((r.perform s.id c).performEach c rest).sessions } := ih _
        _ = { r with sessions := ((r.perform s.id c).performEach c rest).sessions } := by
            rw [perform_rest r s.id hc]

theorem Ascending.finds_filter (h : r.Ascending) (p : Session → Bool) :
    r.Finds (r.all.filter p) where
  ascending := h
  distinct := List.pairwise_map.mpr ((h.all_ascending.filter p).imp fun hlt => Nat.ne_of_lt hlt)
  found _ hs := h.numbered.any?_of_mem_all (List.mem_filter.mp hs).1

theorem Shared.mem_filter_all (h : r.Shared) {p : Session → Bool}
    (hp : ∀ s, p s → ¬ s.isTerminal) (hs : r.any? id = some s) : s ∈ r.all.filter p ↔ p s := by
  rw [List.mem_filter]
  refine and_iff_right_of_imp fun hkind => ?_
  exact List.mem_filterMap.mpr ⟨id, h.live id s hs (hp s hkind), hs⟩

theorem Shared.mem_ids_filter (h : r.Shared) {p : Session → Bool}
    (hp : ∀ s, p s → ¬ s.isTerminal) (hs : r.any? id = some s) :
    id ∈ (r.all.filter p).map (·.id) ↔ p s := by
  rw [List.mem_map]
  constructor
  · rintro ⟨t, ht, rfl⟩
    cases ((h.toAscending.finds_filter p).found t ht).symm.trans hs
    exact (List.mem_filter.mp ht).2
  · intro hkind
    exact ⟨s, (h.mem_filter_all hp hs).mpr hkind, (h.numbered id s hs).1⟩

/-- A round through all sessions of a kind reaches exactly these. -/
theorem Shared.any?_performEach_filter (h : r.Shared) {p : Session → Bool}
    (hp : ∀ s, p s → ¬ s.isTerminal) (c : SessionCall) (id : Nat) :
    (r.performEach c (r.all.filter p)).any? id =
      (r.any? id).map fun s => if p s then (s.perform c).2.1 else s := by
  rw [(h.toAscending.finds_filter p).any?_performEach]
  cases hs : r.any? id with
  | none => simp
  | some s =>
      have hmem := h.mem_ids_filter hp hs
      by_cases hkind : p s
      · simp [if_pos (hmem.mpr hkind), hkind]
      · simp [if_neg (hmem.not.mpr hkind), hkind]

end Patchbay.Registry
