import Patchbay.Proofs.Session.Endings

/-!
# The books of a registry

The list of sessions, the table of handles and the events that wait are kept apart from the
sessions, and each operation brings them up to date. The books agree on which sessions live: those
have a handle, no two the same, and are on the list; the others have given up their ring, and who
waits for an event gets it from one of them only.
-/
namespace Patchbay.Registry

/-- The books agree with the sessions, but some that have ended may still be on the list. -/
structure Booked (r : Registry) : Prop where
  numbered : r.Numbered
  heard : r.Heard
  distinct : r.listed.Nodup
  known : ∀ id ∈ r.listed, ∃ s, r.any? id = some s
  live : ∀ id s, r.any? id = some s → ¬ s.isTerminal → id ∈ r.listed
  handles : ∀ h, h ∈ r.handles.entries.keys ↔
    ∃ id s, r.any? id = some s ∧ ¬ s.isTerminal ∧ s.handle.id = h
  issued : ∀ id s, r.any? id = some s → s.handle.id < r.handles.nextId
  separate : ∀ id id' s s', r.any? id = some s → r.any? id' = some s' →
    s.handle.id = s'.handle.id → id = id'
  closed : ∀ id s, r.any? id = some s → s.isTerminal → s.ring.mapping.isClosed
  announced : ∀ e ∈ r.events, ∃ s, r.any? e.sessionId = some s ∧ s.isTerminal

/-- Nor is a session on the list that has ended. -/
structure Accounted (r : Registry) : Prop extends r.Booked where
  ended : ∀ id ∈ r.listed, ∀ s, r.any? id = some s → ¬ s.isTerminal

variable {r r' : Registry} {id : Nat} {s s' : Session}

theorem accounted_empty {host : Host} {home : Option Session.RingHome} {files : Directory} :
    Accounted { host := host, home := home, files := files } where
  numbered := fun id s hs => by cases hs
  heard := fun id s hs => by cases hs
  distinct := List.nodup_nil
  known := fun id hid => absurd hid List.not_mem_nil
  live := fun id s hs => by cases hs
  handles := fun h => ⟨fun hh => absurd hh List.not_mem_nil, fun ⟨id, s, hs, _⟩ => by cases hs⟩
  issued := fun id s hs => by cases hs
  separate := fun id id' s s' hs => by cases hs
  closed := fun id s hs => by cases hs
  announced := fun e he => absurd he List.not_mem_nil
  ended := fun id hid => absurd hid List.not_mem_nil

theorem Accounted.mem_listed (h : r.Accounted) :
    id ∈ r.listed ↔ ∃ s, r.any? id = some s ∧ ¬ s.isTerminal := by
  constructor
  · intro hid
    obtain ⟨s, hs⟩ := h.known id hid
    exact ⟨s, hs, h.ended id hid s hs⟩
  · rintro ⟨s, hs, hlive⟩
    exact h.live id s hs hlive

/-- The handle of a session is in the table as long as the session lives. -/
theorem Booked.mem_handles (h : r.Booked) (hs : r.any? id = some s) :
    s.handle.id ∈ r.handles.entries.keys ↔ ¬ s.isTerminal := by
  rw [h.handles]
  constructor
  · rintro ⟨id', s', hs', hlive, hsame⟩
    obtain rfl := h.separate id id' s s' hs hs' hsame.symm
    rw [hs] at hs'
    cases hs'
    exact hlive
  · exact fun hlive => ⟨id, s, hs, hlive, rfl⟩

theorem Booked.handles_kept (h : r.Booked)
    (hsame : ∀ id s', r'.any? id = some s' → ∃ s, r.any? id = some s ∧ s'.handle = s.handle) :
    (∀ id s, r'.any? id = some s → s.handle.id < r.handles.nextId) ∧
      ∀ id id' s s', r'.any? id = some s → r'.any? id' = some s' →
        s.handle.id = s'.handle.id → id = id' := by
  constructor
  · intro id s' hs'
    obtain ⟨s, hs, hhandle⟩ := hsame id s' hs'
    rw [hhandle]
    exact h.issued id s hs
  · intro id₁ id₂ s₁ s₂ hs₁ hs₂ heq
    obtain ⟨t₁, ht₁, hhandle₁⟩ := hsame id₁ s₁ hs₁
    obtain ⟨t₂, ht₂, hhandle₂⟩ := hsame id₂ s₂ hs₂
    rw [hhandle₁, hhandle₂] at heq
    exact h.separate id₁ id₂ t₁ t₂ ht₁ ht₂ heq

/-- A session that was made and has ended. -/
def Ended (r : Registry) (id : Nat) : Prop :=
  ∃ s, r.any? id = some s ∧ s.isTerminal

theorem Announces.ended (h : r.Announces r') (hend : r.Ended id) : r'.Ended id := by
  obtain ⟨s, hs, hend⟩ := hend
  obtain ⟨s', hs', hstays, -⟩ := h.sessions id s hs
  exact ⟨s', hs', hstays hend⟩

theorem Accounted.gone (h : r.Accounted) (hend : r.Ended id) :
    ∃ s, r.any? id = some s ∧ s.id = id ∧ s.isTerminal ∧ s.ring.isReleased ∧
      r.handles.entries.has s.handle.id = false ∧ id ∉ r.listed := by
  obtain ⟨s, hs, hend⟩ := hend
  refine ⟨s, hs, (h.numbered id s hs).1, hend, ?_, ?_, fun hid => ?_⟩
  · rw [Ring.isReleased, RingMapping.isReleased, h.closed id s hs hend, Bool.true_or]
  · refine (Bool.not_eq_true _).mp fun hhas => ?_
    exact (h.mem_handles hs).mp ((Table.mem_keys_iff _ _).mpr hhas) hend
  · exact h.ended id hid s hs hend

theorem GoesOn.keptHandles (h : r.GoesOn r') :
    ∀ id s', r'.any? id = some s' → ∃ s, r.any? id = some s ∧ s'.handle = s.handle := by
  intro id s' hs'
  obtain ⟨s, hs, hlater⟩ := h.only id s' hs'
  exact ⟨s, hs, hlater.handle⟩

theorem Booked.goesOn (h : r.Booked) (hgoes : r.GoesOn r') : r'.Booked where
  numbered := hgoes.numbered h.numbered
  heard := (hgoes.tells h.numbered h.heard).heard
  distinct := by
    rw [hgoes.listed]
    exact h.distinct
  known := by
    intro id hid
    rw [hgoes.listed] at hid
    obtain ⟨s, hs⟩ := h.known id hid
    obtain ⟨s', hs', -⟩ := hgoes.sessions id s hs
    exact ⟨s', hs'⟩
  live := by
    intro id s' hs' hlive
    obtain ⟨s, hs, hlater⟩ := hgoes.only id s' hs'
    rw [hlater.isTerminal] at hlive
    rw [hgoes.listed]
    exact h.live id s hs hlive
  handles := by
    intro x
    rw [hgoes.handles.2, h.handles]
    constructor
    · rintro ⟨id, s, hs, hlive, hx⟩
      obtain ⟨s', hs', hlater⟩ := hgoes.sessions id s hs
      refine ⟨id, s', hs', ?_, ?_⟩
      · rw [hlater.isTerminal]
        exact hlive
      · rw [hlater.handle]
        exact hx
    · rintro ⟨id, s', hs', hlive, hx⟩
      obtain ⟨s, hs, hlater⟩ := hgoes.only id s' hs'
      rw [hlater.isTerminal] at hlive
      rw [hlater.handle] at hx
      exact ⟨id, s, hs, hlive, hx⟩
  issued := by
    rw [hgoes.handles.1]
    exact (h.handles_kept hgoes.keptHandles).1
  separate := (h.handles_kept hgoes.keptHandles).2
  closed := by
    intro id s' hs' hend
    obtain ⟨s, hs, hlater⟩ := hgoes.only id s' hs'
    rw [hlater.isTerminal] at hend
    rw [hlater.mapping]
    exact h.closed id s hs hend
  announced := by
    intro e he
    rw [hgoes.events] at he
    obtain ⟨s, hs, hend⟩ := h.announced e he
    obtain ⟨s', hs', hlater⟩ := hgoes.sessions _ s hs
    exact ⟨s', hs', hlater.isTerminal.trans hend⟩

theorem Accounted.goesOn (h : r.Accounted) (hgoes : r.GoesOn r') : r'.Accounted where
  toBooked := h.toBooked.goesOn hgoes
  ended := by
    intro id hid s' hs'
    rw [hgoes.listed] at hid
    obtain ⟨s, hs, hlater⟩ := hgoes.only id s' hs'
    rw [hlater.isTerminal]
    exact h.ended id hid s hs

/-- A session ends, and the books are brought up to date but for the list. -/
theorem Booked.ends (h : r.Booked) (hs : r.any? id = some s) {closing : Closing}
    (hends : s.EndsBy s' closing) : ((r.store s').settle (some closing)).Booked := by
  have hid : s.id = id := (h.numbered id s hs).1
  have hleads : s.LeadsTo s' (some closing) := hends
  obtain ⟨hnumbered, hheard, -⟩ := store_tells h.numbered h.heard hs hleads
  have hany : ∀ id', ((r.store s').settle (some closing)).any? id' =
      if id = id' then some s' else r.any? id' := by
    intro id'
    rw [any?_settle, any?_store, hends.id, hid]
  have hother : ∀ id' t, ((r.store s').settle (some closing)).any? id' = some t →
      id' = id ∧ t = s' ∨ id' ≠ id ∧ r.any? id' = some t := by
    intro id' t ht
    rw [hany] at ht
    by_cases hsame : id = id'
    · rw [if_pos hsame] at ht
      cases ht
      exact Or.inl ⟨hsame.symm, rfl⟩
    · rw [if_neg hsame] at ht
      exact Or.inr ⟨Ne.symm hsame, ht⟩
  have hkept : ∀ id' t, ((r.store s').settle (some closing)).any? id' = some t →
      ∃ t', r.any? id' = some t' ∧ t.handle = t'.handle := by
    intro id' t ht
    rcases hother id' t ht with ⟨rfl, rfl⟩ | ⟨-, ht⟩
    · exact ⟨s, hs, hends.handle⟩
    · exact ⟨t, ht, rfl⟩
  obtain ⟨hissued, hseparate⟩ := h.handles_kept hkept
  constructor
  · exact hnumbered
  · exact hheard
  · exact h.distinct
  · intro id' hmem
    obtain ⟨t, ht⟩ := h.known id' hmem
    rw [hany]
    split
    · exact ⟨s', rfl⟩
    · exact ⟨t, ht⟩
  · intro id' t ht hlive
    rcases hother id' t ht with ⟨-, rfl⟩ | ⟨-, ht⟩
    · exact absurd hends.isTerminal hlive
    · exact h.live id' t ht hlive
  · intro x
    show x ∈ (r.handles.entries.erase closing.handle).keys ↔ _
    rw [Table.mem_keys_erase, hends.withdrawn, h.handles]
    constructor
    · rintro ⟨hne, id', t, ht, hlive, rfl⟩
      refine ⟨id', t, ?_, hlive, rfl⟩
      rw [hany, if_neg]
      · exact ht
      · rintro rfl
        rw [hs] at ht
        cases ht
        exact hne rfl
    · rintro ⟨id', t, ht, hlive, rfl⟩
      rcases hother id' t ht with ⟨-, rfl⟩ | ⟨hne, ht⟩
      · exact absurd hends.isTerminal hlive
      · exact ⟨fun hsame => hne (h.separate id' id t s ht hs hsame), id', t, ht, hlive, rfl⟩
  · exact hissued
  · exact hseparate
  · intro id' t ht hend
    rcases hother id' t ht with ⟨-, rfl⟩ | ⟨-, ht⟩
    · exact hends.isClosed
    · exact h.closed id' t ht hend
  · intro e he
    obtain ⟨event, hevent, hof⟩ := hends.told (h.heard id s hs)
    rw [events_settle, List.mem_append] at he
    rw [hany]
    split
    · exact ⟨s', rfl, hends.isTerminal⟩
    · rename_i hne
      rcases he with he | he
      · exact h.announced e he
      · rw [Option.bind_some, hevent, Option.toList_some, List.mem_singleton] at he
        exact absurd (by rw [he, hof, hid]) hne

theorem any?_perform (hr : r.Numbered) (hs : r.any? id = some s) (c : SessionCall) (id' : Nat) :
    (r.perform id c).any? id' = if id = id' then some (s.perform c).2.1 else r.any? id' := by
  rw [perform_eq, hs]
  dsimp only
  rw [any?_settle, any?_store, (s.leadsTo_perform c).id, (hr id s hs).1]

/-- Who is found after a call is the one that was called or was found before. -/
theorem perform_cases (hr : r.Numbered) {c : SessionCall} {id' : Nat} {t : Session}
    (ht : (r.perform id c).any? id' = some t) :
    (∃ s, r.any? id = some s ∧ id' = id ∧ t = (s.perform c).2.1) ∨
      id' ≠ id ∧ r.any? id' = some t := by
  cases hs : r.any? id with
  | none =>
      rw [perform_eq, hs] at ht
      refine Or.inr ⟨fun hsame => ?_, ht⟩
      rw [hsame, hs] at ht
      cases ht
  | some s =>
      rw [any?_perform hr hs] at ht
      by_cases hsame : id = id'
      · rw [if_pos hsame] at ht
        exact Or.inl ⟨s, rfl, hsame.symm, (Option.some.inj ht).symm⟩
      · rw [if_neg hsame] at ht
        exact Or.inr ⟨Ne.symm hsame, ht⟩

theorem listed_perform (r : Registry) (id : Nat) (c : SessionCall) :
    (r.perform id c).listed = r.listed ∧ (r.perform id c).generation = r.generation := by
  rw [perform_eq]
  cases r.any? id with
  | none => exact ⟨rfl, rfl⟩
  | some s =>
      dsimp only
      cases (s.perform c).2.2 <;> exact ⟨rfl, rfl⟩

/-- Whatever is asked of a session, the books agree but perhaps for the list. -/
theorem Booked.perform (h : r.Booked) (id : Nat) (c : SessionCall) : (r.perform id c).Booked := by
  rw [perform_eq]
  cases hs : r.any? id with
  | none => exact h
  | some s =>
      dsimp only
      have hleads := s.leadsTo_perform c
      generalize (s.perform c).2.1 = s' at hleads ⊢
      generalize (s.perform c).2.2 = closing at hleads ⊢
      cases closing with
      | none => exact h.goesOn (store_goesOn h.numbered hs hleads)
      | some closing => exact h.ends hs hleads

theorem reap_eq (r : Registry) : ∃ generation,
    r.reap.2 = { r with
      listed := r.listed.filter fun id => !(r.any? id).any (·.isTerminal)
      generation := generation } := by
  unfold reap
  dsimp only
  split
  · rename_i hnone
    refine ⟨r.generation, ?_⟩
    have hkept : r.listed.filter (fun id => !(r.any? id).any (·.isTerminal)) = r.listed := by
      have hle := List.length_filter_le (fun id => !(r.any? id).any (·.isTerminal)) r.listed
      exact List.filter_sublist.eq_of_length (by omega)
    dsimp only
    rw [hkept]
  · exact ⟨_, rfl⟩

theorem Booked.reap (h : r.Booked) : r.reap.2.Accounted := by
  obtain ⟨generation, hreap⟩ := r.reap_eq
  rw [hreap]
  have hlisted : ∀ id, id ∈ r.listed.filter (fun id => !(r.any? id).any (·.isTerminal)) ↔
      id ∈ r.listed ∧ ∀ s, r.any? id = some s → ¬ s.isTerminal := by
    intro id
    rw [List.mem_filter]
    cases r.any? id <;> simp
  exact {
    h with
    distinct := h.distinct.filter _
    known := fun id hid => h.known id ((hlisted id).mp hid).1
    live := fun id s hs hlive => (hlisted id).mpr
      ⟨h.live id s hs hlive, fun t ht => by cases hs.symm.trans ht; exact hlive⟩
    ended := fun id hid s hs => ((hlisted id).mp hid).2 s hs }

/-- The next number is free, so what is put under it takes no session's place. -/
theorem Numbered.get?_put_next (hr : r.Numbered) {new : Session} :
    Table.get? (r.sessions.put r.nextId new) id = some s ↔
      id = r.nextId ∧ s = new ∨ r.any? id = some s := by
  constructor
  · intro hs
    exact (Table.get?_put_cases hs).imp_right And.right
  · rintro (⟨rfl, rfl⟩ | hs)
    · rw [Table.get?_put, if_pos (beq_self_eq_true _)]
    · have hlt := (hr id s hs).2
      rw [Table.get?_put, if_neg (by simpa using (Nat.ne_of_lt hlt).symm)]
      exact hs

theorem Booked.next_not_mem_listed (h : r.Booked) : r.nextId ∉ r.listed := by
  intro hid
  obtain ⟨s, hs⟩ := h.known _ hid
  exact Nat.lt_irrefl _ (h.numbered _ s hs).2

theorem Booked.create (h : r.Booked) (config : StreamConfig) : (r.create config).2.Booked := by
  obtain ⟨hnumbered, hheard, -⟩ := create_tells h.numbered h.heard config
  rcases r.create_cases config with ⟨e, files, hmade⟩ | ⟨ring, files, -, hmade⟩
  · rw [hmade] at hnumbered ⊢
    exact { h with numbered := hnumbered }
  · rw [hmade] at hnumbered hheard ⊢
    generalize hnew : ({ id := r.nextId, config := config, ring := ring
                         handle := (r.handles.publish ring.mapping.geometry).1
                         reports := true } : Session) =
      new at *
    have hlive : ¬ new.isTerminal := by
      rw [← hnew]
      exact Bool.false_ne_true
    have hhandle : new.handle.id = r.handles.nextId := by
      rw [← hnew]
      rfl
    have hfound : ∀ id s, Table.get? (r.sessions.put r.nextId new) id = some s ↔
        id = r.nextId ∧ s = new ∨ r.any? id = some s :=
      fun id s => h.numbered.get?_put_next
    exact {
      numbered := hnumbered
      heard := hheard
      distinct := by
        refine List.nodup_append.mpr ⟨h.distinct, by simp, ?_⟩
        rintro a ha b hb rfl
        rw [List.mem_singleton] at hb
        exact h.next_not_mem_listed (hb ▸ ha)
      known := by
        intro id hid
        rcases List.mem_append.mp hid with hid | hid
        · obtain ⟨s, hs⟩ := h.known id hid
          exact ⟨s, (hfound id s).mpr (Or.inr hs)⟩
        · rw [List.mem_singleton] at hid
          exact ⟨new, (hfound id new).mpr (Or.inl ⟨hid, rfl⟩)⟩
      live := by
        intro id s hs hlive
        rcases (hfound id s).mp hs with ⟨rfl, -⟩ | hs
        · exact List.mem_append_right _ (List.mem_singleton_self _)
        · exact List.mem_append_left _ (h.live id s hs hlive)
      handles := by
        intro x
        show x ∈ (r.handles.entries.put r.handles.nextId _).keys ↔ _
        rw [Table.mem_keys_put, h.handles]
        constructor
        · rintro (rfl | ⟨id, s, hs, hlive, hx⟩)
          · exact ⟨r.nextId, new, (hfound _ _).mpr (Or.inl ⟨rfl, rfl⟩), hlive, hhandle⟩
          · exact ⟨id, s, (hfound id s).mpr (Or.inr hs), hlive, hx⟩
        · rintro ⟨id, s, hs, hlive, hx⟩
          rcases (hfound id s).mp hs with ⟨-, rfl⟩ | hs
          · exact Or.inl (hx.symm.trans hhandle)
          · exact Or.inr ⟨id, s, hs, hlive, hx⟩
      issued := by
        intro id s hs
        show s.handle.id < r.handles.nextId + 1
        rcases (hfound id s).mp hs with ⟨-, rfl⟩ | hs
        · rw [hhandle]
          exact Nat.lt_succ_self _
        · exact Nat.lt_succ_of_lt (h.issued id s hs)
      separate := by
        intro id id' s s' hs hs' hsame
        rcases (hfound id s).mp hs with ⟨rfl, rfl⟩ | hold₁ <;>
          rcases (hfound id' s').mp hs' with ⟨rfl, rfl⟩ | hold₂
        · rfl
        · have hissued := h.issued id' s' hold₂
          rw [← hsame, hhandle] at hissued
          exact absurd hissued (Nat.lt_irrefl _)
        · have hissued := h.issued id s hold₁
          rw [hsame, hhandle] at hissued
          exact absurd hissued (Nat.lt_irrefl _)
        · exact h.separate id id' s s' hold₁ hold₂ hsame
      closed := by
        intro id s hs hend
        rcases (hfound id s).mp hs with ⟨-, rfl⟩ | hs
        · exact absurd hend hlive
        · exact h.closed id s hs hend
      announced := by
        intro e he
        obtain ⟨s, hs, hend⟩ := h.announced e he
        exact ⟨s, (hfound _ s).mpr (Or.inr hs), hend⟩ }

theorem Accounted.create (h : r.Accounted) (config : StreamConfig) :
    (r.create config).2.Accounted := by
  refine ⟨h.toBooked.create config, ?_⟩
  rcases r.create_cases config with ⟨e, files, hmade⟩ | ⟨ring, files, -, hmade⟩
  · rw [hmade]
    exact h.ended
  · rw [hmade]
    intro id hid s hs
    rcases h.numbered.get?_put_next.mp hs with ⟨-, rfl⟩ | hs
    · exact Bool.false_ne_true
    · rcases List.mem_append.mp hid with hid | hid
      · exact h.ended id hid s hs
      · rw [List.mem_singleton] at hid
        exact absurd hid (Nat.ne_of_lt (h.numbered id s hs).2)

theorem any?_of_find? (h : r.find? id = some s) : r.any? id = some s := by
  unfold find? at h
  split at h
  · exact h
  · cases h

theorem remove_eq (hfind : r.find? id = some s) :
    (r.remove id).2 = { r.perform id .release with
      listed := r.listed.filter (· ≠ id), generation := r.generation + 1 } := by
  unfold Registry.remove
  rw [hfind]
  dsimp only
  obtain ⟨hlisted, hgeneration⟩ := r.listed_perform id .release
  show { r.perform id .release with
    listed := (r.perform id .release).listed.filter (· ≠ id)
    generation := (r.perform id .release).generation + 1 } = _
  rw [hlisted, hgeneration]

theorem remove_cases (r : Registry) (id : Nat) :
    (r.remove id).2 = r ∨
      (∃ s, r.any? id = some s) ∧ (r.remove id).2 = { r.perform id .release with
        listed := r.listed.filter (· ≠ id), generation := r.generation + 1 } := by
  cases hfind : r.find? id with
  | none =>
      unfold Registry.remove
      rw [hfind]
      exact Or.inl rfl
  | some s => exact Or.inr ⟨⟨s, any?_of_find? hfind⟩, remove_eq hfind⟩

theorem Booked.remove (h : r.Booked) (id : Nat) : (r.remove id).2.Booked := by
  rcases r.remove_cases id with hnone | ⟨⟨s, hs⟩, hremove⟩
  · rw [hnone]
    exact h
  · have hbooked := h.perform id .release
    have hany := any?_perform h.numbered hs .release
    have hlisted : ∀ id', id' ∈ r.listed.filter (· ≠ id) ↔ id' ∈ r.listed ∧ id' ≠ id := by
      intro id'
      rw [List.mem_filter, decide_eq_true_eq]
    rw [hremove]
    exact {
      hbooked with
      distinct := h.distinct.filter _
      known := by
        intro id' hid'
        obtain ⟨hid', hne⟩ := (hlisted id').mp hid'
        obtain ⟨t, ht⟩ := h.known id' hid'
        exact ⟨t, ((hany id').trans (if_neg hne.symm)).trans ht⟩
      live := by
        intro id' t ht hlive
        rcases perform_cases h.numbered ht with ⟨s, -, -, rfl⟩ | ⟨hne, hold⟩
        · exact absurd s.isTerminal_release hlive
        · exact (hlisted id').mpr ⟨h.live id' t hold hlive, hne⟩ }

/-- A listed session ends and goes off the list; the others are as they were. -/
theorem Accounted.remove (h : r.Accounted) (hid : id ∈ r.listed) :
    (r.remove id).2.Accounted ∧ (r.remove id).2.listed = r.listed.filter (· ≠ id) ∧
      ∃ s, (r.remove id).2.any? id = some s ∧ s.isTerminal := by
  obtain ⟨s, hs⟩ := h.known id hid
  have hfind : r.find? id = some s := by
    rw [find?, if_pos (by simpa using hid)]
    exact hs
  have hany := any?_perform h.numbered hs .release
  have hbooked := h.toBooked.remove id
  rw [remove_eq hfind] at hbooked ⊢
  refine ⟨⟨hbooked, fun id' hid' t ht => ?_⟩, rfl, _, (hany id).trans (if_pos rfl),
    s.isTerminal_release⟩
  rw [List.mem_filter, decide_eq_true_eq] at hid'
  exact h.ended id' hid'.1 t (((hany id').trans (if_neg (Ne.symm hid'.2))).symm.trans ht)

end Patchbay.Registry
