import Patchbay.Proofs.Session.Accounts

/-!
# Handing rings over

A ring is published under a handle when its session is made, can be claimed once under that
handle, and is withdrawn when the session ends. The numbers of sessions, the handles and the
rings are counted apart, so a log is kept here beside the registry: which sessions were made with
which handles, and which handles were claimed. After every run the table of handles is what the
log says.
-/
namespace Patchbay

/-- What is done in a registry whose rings are handed over. -/
inductive HandoverStep where
  | create (config : StreamConfig)
  | call (id : Nat) (c : SessionCall)
  | claim (handle : Nat)
  /-- Peers that map the ring of a session leave its memory like this. -/
  | share (id : Nat) (memory : Memory)
  | remove (id : Nat)
  | reap

/-- A registry with the sessions that were made in it and the handles that were claimed, both in
order. -/
structure HandoverLog where
  registry : Registry
  made : List (Nat × Handle) := []
  claimed : List Nat := []

/-- The handle tells the geometry of a ring. -/
def Handle.Describes (h : Handle) (g : RingGeometry) : Prop :=
  h.spanCount = g.spanCount ∧ h.spanSize = g.spanSize

/-- From `r` to `r'` no session was made, and of those that live everything is still published. -/
structure Registry.Retains (r r' : Registry) : Prop where
  only : ∀ id s', r'.any? id = some s' → ∃ s, r.any? id = some s ∧ s'.handle = s.handle ∧
    s'.ring.mapping.geometry = s.ring.mapping.geometry ∧ (s.isTerminal → s'.isTerminal)
  kept : ∀ id s, r.any? id = some s → ∃ s', r'.any? id = some s' ∧ s'.handle = s.handle
  nextHandle : r'.handles.nextId = r.handles.nextId
  entry : ∀ id s, r'.any? id = some s → ¬ s.isTerminal →
    r'.handles.entries.get? s.handle.id = r.handles.entries.get? s.handle.id

namespace HandoverLog

def step (l : HandoverLog) : HandoverStep → HandoverLog
  | .create config =>
    match l.registry.create config with
    | (.ok s, r) => { l with registry := r, made := l.made ++ [(s.id, s.handle)] }
    | (.error _, r) => { l with registry := r }
  | .claim handle =>
    match l.registry.claim handle with
    | (.ok _, r) => { l with registry := r, claimed := l.claimed ++ [handle] }
    | (.error _, r) => { l with registry := r }
  | .call id c => { l with registry := l.registry.perform id c }
  | .share id memory =>
    { l with
      registry := l.registry.modify id fun s =>
        { s with ring := { s.ring with memory := memory } } }
  | .remove id => { l with registry := (l.registry.remove id).2 }
  | .reap => { l with registry := l.registry.reap.2 }

def run (l : HandoverLog) (steps : List HandoverStep) : HandoverLog :=
  steps.foldl step l

/-- The registry and the log tell the same. -/
structure Agrees (l : HandoverLog) : Prop where
  booked : l.registry.Booked
  made : ∀ id h, (id, h) ∈ l.made ↔ ∃ s, l.registry.any? id = some s ∧ s.handle = h
  ascending : l.made.Pairwise fun e e' => e.1 < e'.1 ∧ e.2.id < e'.2.id
  shaped : ∀ id s, l.registry.any? id = some s → s.handle.Describes s.ring.mapping.geometry
  entry : ∀ id s, l.registry.any? id = some s → ¬ s.isTerminal →
    l.registry.handles.entries.get? s.handle.id =
      some { geometry := s.ring.mapping.geometry, isClaimed := decide (s.handle.id ∈ l.claimed) }
  issued : ∀ h ∈ l.claimed, h < l.registry.handles.nextId
  once : l.claimed.Nodup

/-- What it means that rings are handed over once and withdrawn with their sessions. -/
structure HandsOver (l : HandoverLog) : Prop where
  numbers : (l.made.map (·.1)).Pairwise (· < ·)
  handles : (l.made.map (·.2.id)).Pairwise (· < ·)
  known : ∀ id, id ∈ l.made.map (·.1) ↔ ∃ s, l.registry.any? id = some s
  published : ∀ h, h ∈ l.registry.handles.entries.keys ↔
    ∃ e ∈ l.made, e.2.id = h ∧ ∃ s, l.registry.any? e.1 = some s ∧ ¬ s.isTerminal
  resolved : ∀ e ∈ l.made, ∀ s, l.registry.any? e.1 = some s →
    e.2.Describes s.ring.mapping.geometry ∧
      (l.registry.apply e.1 Session.resolve).1 =
        if s.isTerminal then .error (s.illegal "resolve_buffer") else .ok e.2
  once : l.claimed.Nodup
  claims : ∀ e ∈ l.made, ∀ s, l.registry.any? e.1 = some s →
    (l.registry.claim e.2.id).1 =
      if s.isTerminal then .error (.handleNotFound e.2.id)
      else if e.2.id ∈ l.claimed then .error (.alreadyTransferred e.2.id)
      else .ok s.ring.mapping.geometry
  unknown : ∀ h, (∀ e ∈ l.made, e.2.id ≠ h) → (l.registry.claim h).1 = .error (.handleNotFound h)
  closed : ∀ id s, l.registry.any? id = some s → s.isTerminal → s.ring.isReleased

end HandoverLog

theorem Session.LeadsTo.handle {s s' : Session} {closing : Option Closing}
    (h : s.LeadsTo s' closing) : s'.handle = s.handle := by
  cases closing with
  | none => exact GoesOn.handle h
  | some c => exact EndsBy.handle h

theorem Session.geometry_perform (s : Session) (c : SessionCall) :
    (s.perform c).2.1.ring.mapping.geometry = s.ring.mapping.geometry := by
  have hclose : s.ring.release.mapping.geometry = s.ring.mapping.geometry := by
    unfold Ring.release RingMapping.release
    dsimp only
    split <;> rfl
  have hleads := s.leadsTo_perform c
  cases c with
  | release =>
      show s.release.2.1.ring.mapping.geometry = _
      unfold release
      split
      · rfl
      · exact hclose
  | invalidate reason =>
      show (s.invalidate reason).1.ring.mapping.geometry = _
      unfold invalidate
      split
      · rfl
      · exact hclose
  | _ => exact congrArg RingMapping.geometry hleads.mapping

namespace Registry

variable {r r' : Registry} {id : Nat} {s : Session}

theorem Retains.refl (r : Registry) : r.Retains r :=
  ⟨fun _ s hs => ⟨s, hs, rfl, rfl, fun h => h⟩, fun _ s hs => ⟨s, hs, rfl⟩, rfl,
    fun _ _ _ _ => rfl⟩

theorem Booked.retains_perform (h : r.Booked) (id : Nat) (c : SessionCall) :
    r.Retains (r.perform id c) := by
  cases hs : r.any? id with
  | none =>
      rw [perform_eq, hs]
      exact .refl r
  | some s =>
      have hany := any?_perform h.numbered hs c
      have hleads := s.leadsTo_perform c
      have hcases : ∀ id' t, (r.perform id c).any? id' = some t →
          id' = id ∧ t = (s.perform c).2.1 ∨ id' ≠ id ∧ r.any? id' = some t := by
        intro id' t ht
        rcases perform_cases h.numbered ht with ⟨s', hs', hid, ht⟩ | hother
        · cases hs.symm.trans hs'
          exact Or.inl ⟨hid, ht⟩
        · exact Or.inr hother
      constructor
      · intro id' t ht
        rcases hcases id' t ht with ⟨rfl, rfl⟩ | ⟨-, ht⟩
        · exact ⟨s, hs, hleads.handle, s.geometry_perform c,
            fun hend => Session.isTerminal_perform hend c⟩
        · exact ⟨t, ht, rfl, rfl, fun hend => hend⟩
      · intro id' t ht
        rw [hany]
        by_cases hsame : id = id'
        · subst hsame
          cases hs.symm.trans ht
          exact ⟨_, if_pos rfl, hleads.handle⟩
        · exact ⟨t, (if_neg hsame).trans ht, rfl⟩
      · rw [perform_eq, hs]
        dsimp only
        cases (s.perform c).2.2 <;> rfl
      · intro id' t ht hlive
        have hold := hcases id' t ht
        rw [perform_eq, hs]
        dsimp only
        cases hclosing : (s.perform c).2.2 with
        | none => rfl
        | some closing =>
            rw [hclosing] at hleads
            rcases hold with ⟨-, rfl⟩ | ⟨hne, ht⟩
            · exact absurd (Session.EndsBy.isTerminal hleads) hlive
            · have hother : ¬ closing.handle == t.handle.id := by
                rw [Session.EndsBy.withdrawn hleads, beq_iff_eq]
                exact fun hsame => hne (h.separate id' id t s ht hs hsame.symm)
              show Table.get? (r.handles.entries.erase closing.handle) t.handle.id = _
              rw [Table.get?_erase, if_neg hother]

theorem Booked.retains_remove (h : r.Booked) (id : Nat) : r.Retains (r.remove id).2 := by
  rcases r.remove_cases id with hnone | ⟨-, hremove⟩
  · rw [hnone]
    exact .refl r
  · rw [hremove]
    obtain ⟨honly, hkept, hnext, hentry⟩ := h.retains_perform id .release
    exact ⟨honly, hkept, hnext, hentry⟩

theorem retains_reap (r : Registry) : r.Retains r.reap.2 := by
  obtain ⟨generation, hreap⟩ := r.reap_eq
  rw [hreap]
  obtain ⟨honly, hkept, hnext, hentry⟩ := Retains.refl r
  exact ⟨honly, hkept, hnext, hentry⟩

theorem retains_share (r : Registry) (id : Nat) (memory : Memory) :
    r.Retains (r.modify id fun s => { s with ring := { s.ring with memory := memory } }) := by
  constructor
  · intro id' t ht
    rw [any?_modify] at ht
    by_cases hsame : id = id'
    · rw [if_pos hsame, Option.map_eq_some_iff] at ht
      obtain ⟨s, hs, rfl⟩ := ht
      exact ⟨s, hs, rfl, rfl, fun hend => hend⟩
    · rw [if_neg hsame] at ht
      exact ⟨t, ht, rfl, rfl, fun hend => hend⟩
  · intro id' t ht
    rw [any?_modify, ht]
    by_cases hsame : id = id'
    · exact ⟨_, if_pos hsame, rfl⟩
    · exact ⟨t, if_neg hsame, rfl⟩
  · rfl
  · exact fun _ _ _ _ => rfl

end Registry

namespace HandoverLog

variable {l : HandoverLog}

theorem Agrees.retains (h : l.Agrees) {r' : Registry} (hretains : l.registry.Retains r')
    (hbooked : r'.Booked) : { l with registry := r' }.Agrees where
  booked := hbooked
  made := by
    intro id handle
    rw [h.made]
    constructor
    · rintro ⟨s, hs, rfl⟩
      exact hretains.kept id s hs
    · rintro ⟨s', hs', rfl⟩
      obtain ⟨s, hs, hhandle, -⟩ := hretains.only id s' hs'
      exact ⟨s, hs, hhandle.symm⟩
  ascending := h.ascending
  shaped := by
    intro id s' hs'
    obtain ⟨s, hs, hhandle, hgeometry, -⟩ := hretains.only id s' hs'
    rw [hhandle, hgeometry]
    exact h.shaped id s hs
  entry := by
    intro id s' hs' hlive
    obtain ⟨s, hs, hhandle, hgeometry, hends⟩ := hretains.only id s' hs'
    have hbefore := h.entry id s hs fun hend => hlive (hends hend)
    rw [← hhandle, ← hgeometry] at hbefore
    exact (hretains.entry id s' hs' hlive).trans hbefore
  issued := by
    intro handle hmem
    rw [hretains.nextHandle]
    exact h.issued handle hmem
  once := h.once

/-- A session was added under the next number and published under the next handle. -/
theorem Agrees.adds (h : l.Agrees) {r' : Registry} {new : Session} (hbooked : r'.Booked)
    (hfound : ∀ id s, r'.any? id = some s ↔
      id = l.registry.nextId ∧ s = new ∨ l.registry.any? id = some s)
    (hid : new.id = l.registry.nextId)
    (hpublished : (new.handle, r'.handles) = l.registry.handles.publish new.ring.mapping.geometry) :
    { l with registry := r', made := l.made ++ [(new.id, new.handle)] }.Agrees := by
  obtain ⟨hhandle, hhandles⟩ := Prod.ext_iff.mp hpublished
  dsimp only at hhandle hhandles
  have hnumber : new.handle.id = l.registry.handles.nextId := by
    rw [hhandle]
    rfl
  constructor
  · exact hbooked
  · intro id handle
    rw [List.mem_append, List.mem_singleton, h.made, Prod.mk.injEq]
    constructor
    · rintro (⟨s, hs, hh⟩ | ⟨hnext, hh⟩)
      · exact ⟨s, (hfound id s).mpr (Or.inr hs), hh⟩
      · exact ⟨new, (hfound id new).mpr (Or.inl ⟨hnext.trans hid, rfl⟩), hh.symm⟩
    · rintro ⟨s, hs, hh⟩
      rcases (hfound id s).mp hs with ⟨hnext, rfl⟩ | hs
      · exact Or.inr ⟨hnext.trans hid.symm, hh.symm⟩
      · exact Or.inl ⟨s, hs, hh⟩
  · refine List.pairwise_append.mpr ⟨h.ascending, List.pairwise_singleton _ _, ?_⟩
    rintro ⟨id, handle⟩ hold e hlast
    rw [List.mem_singleton] at hlast
    obtain ⟨s, hs, rfl⟩ := (h.made id handle).mp hold
    rw [hlast]
    dsimp only
    rw [hid, hnumber]
    exact ⟨(h.booked.numbered id s hs).2, h.booked.issued id s hs⟩
  · intro id s hs
    rcases (hfound id s).mp hs with ⟨-, rfl⟩ | hs
    · rw [hhandle]
      exact ⟨rfl, rfl⟩
    · exact h.shaped id s hs
  · intro id s hs hlive
    dsimp only
    rw [hhandles, HandleTable.publish, Table.get?_put]
    rcases (hfound id s).mp hs with ⟨-, rfl⟩ | hs
    · have hfree : l.registry.handles.nextId ∉ l.claimed :=
        fun hmem => Nat.lt_irrefl _ (h.issued _ hmem)
      rw [hnumber, if_pos (beq_self_eq_true _), decide_eq_false hfree]
    · have hne : ¬ l.registry.handles.nextId == s.handle.id := by
        rw [beq_iff_eq]
        exact Nat.ne_of_gt (h.booked.issued id s hs)
      rw [if_neg hne]
      exact h.entry id s hs hlive
  · intro handle hmem
    dsimp only
    rw [hhandles]
    exact Nat.lt_succ_of_lt (h.issued handle hmem)
  · exact h.once

theorem Agrees.create (h : l.Agrees) (config : StreamConfig) :
    (l.step (.create config)).Agrees := by
  have hbooked := h.booked.create config
  unfold step
  dsimp only
  rcases l.registry.create_cases config with ⟨e, files, hmade⟩ | ⟨ring, files, -, hmade⟩
  · rw [hmade] at hbooked ⊢
    exact { h with booked := hbooked }
  · rw [hmade] at hbooked ⊢
    exact h.adds hbooked (fun id s => h.booked.numbered.get?_put_next) rfl rfl

/-- What a claim answers, by the session whose handle it names. -/
theorem Agrees.claim_eq (h : l.Agrees) {id : Nat} {s : Session}
    (hs : l.registry.any? id = some s) :
    (l.registry.claim s.handle.id).1 =
      if s.isTerminal then .error (.handleNotFound s.handle.id)
      else if s.handle.id ∈ l.claimed then .error (.alreadyTransferred s.handle.id)
      else .ok s.ring.mapping.geometry := by
  unfold Registry.claim HandleTable.claim
  by_cases hend : s.isTerminal
  · have hgone : s.handle.id ∉ l.registry.handles.entries.keys :=
      fun hmem => (h.booked.mem_handles hs).mp hmem hend
    rw [Table.get?_eq_none_iff.mpr hgone, if_pos hend]
  · rw [h.entry id s hs hend, if_neg hend]
    by_cases hclaimed : s.handle.id ∈ l.claimed <;> simp [hclaimed]

theorem Agrees.claim_unknown (h : l.Agrees) {handle : Nat}
    (hnone : ∀ id s, l.registry.any? id = some s → s.handle.id ≠ handle) :
    (l.registry.claim handle).1 = .error (.handleNotFound handle) := by
  have hgone : handle ∉ l.registry.handles.entries.keys := by
    intro hmem
    obtain ⟨id, s, hs, -, hhandle⟩ := (h.booked.handles handle).mp hmem
    exact hnone id s hs hhandle
  unfold Registry.claim HandleTable.claim
  rw [Table.get?_eq_none_iff.mpr hgone]

theorem Agrees.claim (h : l.Agrees) (handle : Nat) : (l.step (.claim handle)).Agrees := by
  have hbooked := h.booked.goesOn (l.registry.claim_goesOn handle)
  unfold step
  dsimp only
  cases hentry : l.registry.handles.entries.get? handle with
  | none =>
      have hsame : l.registry.claim handle = (.error (.handleNotFound handle), l.registry) := by
        unfold Registry.claim HandleTable.claim
        rw [hentry]
      rw [hsame]
      exact h
  | some e =>
      have hkey : handle ∈ l.registry.handles.entries.keys :=
        (Table.mem_keys_iff_get? _ _).mpr ⟨e, hentry⟩
      obtain ⟨id, s, hs, hlive, rfl⟩ := (h.booked.handles handle).mp hkey
      have he := hentry.symm.trans (h.entry id s hs hlive)
      cases he
      by_cases hclaimed : s.handle.id ∈ l.claimed
      · have hsame : l.registry.claim s.handle.id =
            (.error (.alreadyTransferred s.handle.id), l.registry) := by
          unfold Registry.claim HandleTable.claim
          rw [hentry]
          simp [hclaimed]
        rw [hsame]
        exact h
      · have hclaim : l.registry.claim s.handle.id = (.ok s.ring.mapping.geometry,
            { l.registry with handles := { l.registry.handles with
                entries := l.registry.handles.entries.modify s.handle.id
                  ({ · with isClaimed := true }) } }) := by
          unfold Registry.claim HandleTable.claim
          rw [hentry]
          simp [hclaimed]
        rw [hclaim] at hbooked ⊢
        dsimp only
        exact {
          h with
          booked := hbooked
          entry := by
            intro id' t ht hlive'
            dsimp only
            rw [Table.get?_modify, h.entry id' t ht hlive']
            by_cases hsame : s.handle.id = t.handle.id
            · simp [hsame]
            · have hne : ¬ t.handle.id = s.handle.id := Ne.symm hsame
              simp [hsame, hne]
          issued := by
            intro x hx
            rcases List.mem_append.mp hx with hx | hx
            · exact h.issued x hx
            · rw [List.mem_singleton] at hx
              rw [hx]
              exact h.booked.issued id s hs
          once := by
            refine List.nodup_append.mpr ⟨h.once, by simp, ?_⟩
            rintro x hx y hy rfl
            rw [List.mem_singleton] at hy
            exact hclaimed (hy ▸ hx) }

theorem agrees_empty {host : Host} {home : Option Session.RingHome} {files : Directory} :
    Agrees { registry := { host := host, home := home, files := files } } where
  booked := Registry.accounted_empty.toBooked
  made := fun id h => ⟨fun hmem => absurd hmem List.not_mem_nil, fun ⟨s, hs, _⟩ => by cases hs⟩
  ascending := List.Pairwise.nil
  shaped := fun id s hs => by cases hs
  entry := fun id s hs => by cases hs
  issued := fun h hmem => absurd hmem List.not_mem_nil
  once := List.nodup_nil

theorem Agrees.step (h : l.Agrees) (t : HandoverStep) : (l.step t).Agrees := by
  cases t with
  | create config => exact h.create config
  | call id c => exact h.retains (h.booked.retains_perform id c) (h.booked.perform id c)
  | claim handle => exact h.claim handle
  | share id memory =>
      refine h.retains (l.registry.retains_share id memory) (h.booked.goesOn ?_)
      exact l.registry.modify_goesOn id fun s => ⟨rfl, rfl, rfl, rfl, rfl⟩
  | remove id => exact h.retains (h.booked.retains_remove id) (h.booked.remove id)
  | reap => exact h.retains l.registry.retains_reap h.booked.reap.toBooked

theorem Agrees.run (h : l.Agrees) (steps : List HandoverStep) : (l.run steps).Agrees := by
  induction steps generalizing l with
  | nil => exact h
  | cons t rest ih => exact ih (h.step t)

theorem Agrees.handsOver (h : l.Agrees) : l.HandsOver where
  numbers := List.pairwise_map.mpr (h.ascending.imp And.left)
  handles := List.pairwise_map.mpr (h.ascending.imp And.right)
  known := by
    intro id
    rw [List.mem_map]
    constructor
    · rintro ⟨⟨id, handle⟩, he, rfl⟩
      obtain ⟨s, hs, -⟩ := (h.made id handle).mp he
      exact ⟨s, hs⟩
    · rintro ⟨s, hs⟩
      exact ⟨(id, s.handle), (h.made id s.handle).mpr ⟨s, hs, rfl⟩, rfl⟩
  published := by
    intro handle
    rw [h.booked.handles]
    constructor
    · rintro ⟨id, s, hs, hlive, hhandle⟩
      exact ⟨(id, s.handle), (h.made id s.handle).mpr ⟨s, hs, rfl⟩, hhandle, s, hs, hlive⟩
    · rintro ⟨⟨id, handle⟩, he, rfl, t, ht, hlive⟩
      obtain ⟨s, hs, rfl⟩ := (h.made id handle).mp he
      cases hs.symm.trans ht
      exact ⟨id, t, ht, hlive, rfl⟩
  resolved := by
    rintro ⟨id, handle⟩ he t ht
    obtain ⟨s, hs, rfl⟩ := (h.made id handle).mp he
    cases hs.symm.trans ht
    refine ⟨h.shaped id t ht, ?_⟩
    unfold Registry.apply Session.resolve
    rw [ht]
    dsimp only
    split
    · rfl
    · split <;> rfl
  once := h.once
  claims := by
    rintro ⟨id, handle⟩ he t ht
    obtain ⟨s, hs, rfl⟩ := (h.made id handle).mp he
    cases hs.symm.trans ht
    exact h.claim_eq ht
  unknown := by
    intro handle hnone
    refine h.claim_unknown fun id s hs => ?_
    exact hnone (id, s.handle) ((h.made id s.handle).mpr ⟨s, hs, rfl⟩)
  closed := by
    intro id s hs hend
    rw [Ring.isReleased, RingMapping.isReleased, h.booked.closed id s hs hend, Bool.true_or]

end HandoverLog

/-- On every run of one registry: no number and no handle is given out twice; the table holds
exactly the handles of the sessions that live; a session that lives is given the same handle
each time, which describes its ring; no handle is claimed twice, for a claimed one is refused as
handed over and that of an ended session as unknown; and the ring of an ended session is
released. -/
theorem rings_handed_over_once (host : Host) (home : Option Session.RingHome) (files : Directory)
    (steps : List HandoverStep) :
    (HandoverLog.run { registry := { host := host, home := home, files := files } }
      steps).HandsOver :=
  (HandoverLog.agrees_empty.run steps).handsOver

/-- Two sessions and one claim of the first handle that succeeds out of three. -/
example :
    let config : StreamConfig := ⟨.render .music, {}, 1000, 16, 4⟩
    let l := HandoverLog.run { registry := {} }
      [.create config, .create config, .call 1 .resolve, .claim 1, .claim 1, .remove 1, .claim 1]
    l.made.map (·.2.id) = [1, 2] ∧ l.claimed = [1] ∧ l.registry.handles.entries.keys = [2] := by
  decide

end Patchbay
