import Patchbay.Proofs.Ring.SharedRuns
import Patchbay.Proofs.Session.RegistryRuns

/-!
# How sessions end

A call either lets a session go on as it was, alive or ended, or ends it: then its ring is
released, its handle is withdrawn, and whoever listens is told. In a registry whose sessions are
all listened to, no session ends without an event.
-/
namespace Patchbay

/-- Nothing was ever written to the ring. -/
def Ring.IsFresh (r : Ring) : Prop :=
  r.mapping.geometry.check = .ok () ∧ r.mapping.isClosed = false ∧
    Holds r.mapping.geometry r.memory {} 0

namespace Session

/-- A later time of the same session, which has not ended in between. -/
structure GoesOn (s s' : Session) : Prop where
  id : s'.id = s.id
  handle : s'.handle = s.handle
  reports : s'.reports = s.reports
  mapping : s'.ring.mapping = s.ring.mapping
  isTerminal : s'.isTerminal = s.isTerminal

/-- The session has ended, and `closing` is what its surroundings have to do for that. -/
structure EndsBy (s s' : Session) (closing : Closing) : Prop where
  id : s'.id = s.id
  handle : s'.handle = s.handle
  reports : s'.reports = s.reports
  isClosed : s'.ring.mapping.isClosed
  isTerminal : s'.isTerminal
  withdrawn : closing.handle = s.handle.id
  told : s.reports → ∃ e, closing.event = some e ∧ e.sessionId = s.id

/-- What a call makes of a session. -/
def LeadsTo (s s' : Session) : Option Closing → Prop
  | none => s.GoesOn s'
  | some closing => s.EndsBy s' closing

variable {s s' : Session} {state state' : SessionState} {closing : Option Closing}

theorem GoesOn.refl (s : Session) : s.GoesOn s :=
  ⟨rfl, rfl, rfl, rfl, rfl⟩

theorem GoesOn.trans {s'' : Session} (h : s.GoesOn s') (h' : s'.GoesOn s'') : s.GoesOn s'' :=
  ⟨h'.id.trans h.id, h'.handle.trans h.handle, h'.reports.trans h.reports,
    h'.mapping.trans h.mapping, h'.isTerminal.trans h.isTerminal⟩

theorem isTerminal_of_state (h : s.state = state) (h' : s'.state = state')
    (hends : state'.isTerminal = state.isTerminal) : s'.isTerminal = s.isTerminal := by
  rw [isTerminal, isTerminal, h, h', hends]

theorem isClosed_release (r : Ring) : r.release.mapping.isClosed := by
  unfold Ring.release RingMapping.release
  dsimp only
  split
  · assumption
  · rfl

theorem endsBy_close (s : Session) {e : SessionEvent} (hstate : state.isTerminal)
    (he : e.sessionId = s.id) : s.EndsBy (s.close state e).1 (s.close state e).2 where
  id := rfl
  handle := rfl
  reports := rfl
  isClosed := isClosed_release s.ring
  isTerminal := hstate
  withdrawn := rfl
  told := fun hreports => ⟨e, by rw [close, if_pos hreports], he⟩

theorem goesOn_resolve (s : Session) : s.GoesOn s.resolve.2 := by
  unfold resolve
  split
  · exact .refl s
  · split
    · rename_i hnew
      exact ⟨rfl, rfl, rfl, rfl, isTerminal_of_state hnew rfl rfl⟩
    · exact .refl s

theorem goesOn_start (s : Session) : s.GoesOn s.start.2 := by
  unfold start
  split
  · rename_i h
    split <;> exact ⟨rfl, rfl, rfl, rfl, isTerminal_of_state h rfl rfl⟩
  · rename_i h
    split <;> exact ⟨rfl, rfl, rfl, rfl, isTerminal_of_state h rfl rfl⟩
  · exact .refl s

theorem goesOn_flushRing (s : Session) : s.GoesOn s.flushRing.2 := by
  unfold flushRing
  split <;>
    · rename_i h
      have hmapping := congrArg (fun p => p.2.mapping) h
      exact ⟨rfl, rfl, rfl, hmapping.symm, rfl⟩

theorem goesOn_pause (s : Session) (discard : Bool) : s.GoesOn (s.pause discard).2 := by
  unfold pause
  split
  · rename_i hrunning
    dsimp only
    have hflush := goesOn_flushRing { s with state := .paused }
    split
    · split
      · rename_i hok
        rw [hok] at hflush
        exact ⟨hflush.id, hflush.handle, hflush.reports, hflush.mapping,
          hflush.isTerminal.trans (isTerminal_of_state hrunning rfl rfl)⟩
      · rename_i herror
        rw [herror] at hflush
        exact ⟨hflush.id, hflush.handle, hflush.reports, hflush.mapping,
          isTerminal_of_state hrunning rfl rfl⟩
    · exact ⟨rfl, rfl, rfl, rfl, isTerminal_of_state hrunning rfl rfl⟩
  · exact .refl s

theorem goesOn_resume (s : Session) : s.GoesOn s.resume.2 := by
  unfold resume
  split
  · rename_i h
    split <;> exact ⟨rfl, rfl, rfl, rfl, isTerminal_of_state h rfl rfl⟩
  · exact .refl s

theorem goesOn_stop (s : Session) : s.GoesOn s.stop.2 := by
  unfold stop
  dsimp only
  split
  · rename_i h
    exact ⟨rfl, rfl, rfl, rfl, isTerminal_of_state h rfl rfl⟩
  · rename_i h
    exact ⟨rfl, rfl, rfl, rfl, isTerminal_of_state h rfl rfl⟩
  · rename_i h
    split
    · exact ⟨rfl, rfl, rfl, rfl, isTerminal_of_state h rfl rfl⟩
    · exact .refl s
  · exact .refl s

theorem goesOn_flush (s : Session) : s.GoesOn s.flush.2 := by
  unfold flush
  split
  · exact s.goesOn_flushRing
  · exact s.goesOn_flushRing
  · exact .refl s

theorem goesOn_bind (s : Session) (d : Device) : s.GoesOn (s.bind d).2 := by
  unfold bind
  split
  · exact .refl s
  · dsimp only
    split
    · split
      · rename_i h
        exact ⟨rfl, rfl, rfl, rfl, isTerminal_of_state h rfl rfl⟩
      · exact ⟨rfl, rfl, rfl, rfl, rfl⟩
    · split
      · rename_i h
        rw [Bool.and_eq_true, decide_eq_true_eq] at h
        obtain ⟨-, hprepared⟩ := h
        exact ⟨rfl, rfl, rfl, rfl, isTerminal_of_state hprepared rfl rfl⟩
      · exact ⟨rfl, rfl, rfl, rfl, rfl⟩

theorem goesOn_write (s : Session) (frame : List UInt8) (t : UInt64) :
    s.GoesOn (s.write frame t).2 := by
  unfold write
  split
  · exact .refl s
  · split <;>
      · rename_i h
        have hmapping := congrArg (fun p => p.2.mapping) h
        exact ⟨rfl, rfl, rfl, hmapping.symm, rfl⟩

theorem goesOn_read (s : Session) (want : Nat) : s.GoesOn (s.read want).2 := by
  unfold read
  split
  · exact .refl s
  · split <;>
      · rename_i h
        have hmapping := congrArg (fun p => p.2.mapping) h
        exact ⟨rfl, rfl, rfl, hmapping.symm, rfl⟩

theorem leadsTo_release (s : Session) : s.LeadsTo s.release.2.1 s.release.2.2 := by
  unfold release
  split
  · exact GoesOn.refl s
  · exact s.endsBy_close rfl rfl

theorem leadsTo_invalidate (s : Session) (reason : String) :
    s.LeadsTo (s.invalidate reason).1 (s.invalidate reason).2 := by
  unfold invalidate
  split
  · exact GoesOn.refl s
  · exact s.endsBy_close rfl rfl

/-- Only a release and a fault end a session, and every call says what is to be done for it. -/
theorem leadsTo_perform (s : Session) (c : SessionCall) :
    s.LeadsTo (s.perform c).2.1 (s.perform c).2.2 := by
  cases c with
  | resolve => exact s.goesOn_resolve
  | start => exact s.goesOn_start
  | pause discard => exact s.goesOn_pause discard
  | resume => exact s.goesOn_resume
  | stop => exact s.goesOn_stop
  | flush => exact s.goesOn_flush
  | bind d => exact s.goesOn_bind d
  | release => exact s.leadsTo_release
  | invalidate reason => exact s.leadsTo_invalidate reason
  | write frame t => exact s.goesOn_write frame t
  | read want => exact s.goesOn_read want
  | info => exact GoesOn.refl s

theorem LeadsTo.id (h : s.LeadsTo s' closing) : s'.id = s.id := by
  cases closing with
  | none => exact GoesOn.id h
  | some c => exact EndsBy.id h

theorem LeadsTo.reports (h : s.LeadsTo s' closing) : s'.reports = s.reports := by
  cases closing with
  | none => exact GoesOn.reports h
  | some c => exact EndsBy.reports h

/-- The end of a session is final, and one that is listened to does not end without an event. -/
theorem LeadsTo.isTerminal (h : s.LeadsTo s' closing) (hreports : s.reports) :
    (s.isTerminal → s'.isTerminal) ∧
      (s'.isTerminal → s.isTerminal ∨
        ∃ e ∈ (closing.bind (·.event)).toList, e.sessionId = s.id) := by
  cases closing with
  | none =>
      have hsame := GoesOn.isTerminal h
      exact ⟨fun hend => hsame.trans hend, fun hend => Or.inl (hsame.symm.trans hend)⟩
  | some c =>
      obtain ⟨e, hevent, he⟩ := EndsBy.told h hreports
      refine ⟨fun _ => EndsBy.isTerminal h, fun _ => Or.inr ⟨e, ?_, he⟩⟩
      simp [hevent]

/-- A session comes with a fresh ring and a new handle of it, and without one no handle is used
up. -/
theorem create_cases (host : Host) (home : Option RingHome) (id : Nat) (config : StreamConfig)
    (files : Directory) (handles : HandleTable) :
    (∃ e files', create host home id config files handles = (.error e, files', handles)) ∨
    ∃ ring files', ring.IsFresh ∧ create host home id config files handles =
      (.ok { id := id, config := config, ring := ring
             handle := (handles.publish ring.mapping.geometry).1 },
        files', (handles.publish ring.mapping.geometry).2) := by
  unfold create
  split
  · exact Or.inl ⟨_, _, rfl⟩
  · split
    · exact Or.inl ⟨_, _, rfl⟩
    · rename_i spanSize _
      dsimp only
      split
      · exact Or.inl ⟨_, _, rfl⟩
      · rename_i ring files' hmade
        have hring : ring.IsFresh ∧ ring.mapping.geometry = ⟨config.spanCount, spanSize⟩ := by
          cases home with
          | none =>
              injection hmade with hmade
              obtain ⟨hcheck, hmapping, hholds⟩ := createAnonymous_ok hmade
              rw [Ring.IsFresh, hmapping]
              exact ⟨⟨hcheck, rfl, hholds⟩, rfl⟩
          | some h =>
              obtain ⟨hcheck, hmapping, hholds, -⟩ := createFile_ok hmade
              rw [Ring.IsFresh, hmapping]
              exact ⟨⟨hcheck, rfl, hholds⟩, rfl⟩
        obtain ⟨hfresh, hgeometry⟩ := hring
        rw [← hgeometry]
        exact Or.inr ⟨ring, files', hfresh, rfl⟩

end Session

theorem HandleTable.keys_claim (t : HandleTable) (id : Nat) :
    (t.claim id).2.nextId = t.nextId ∧ (t.claim id).2.entries.keys = t.entries.keys := by
  unfold claim
  split
  · exact ⟨rfl, rfl⟩
  · split
    · exact ⟨rfl, rfl⟩
    · refine ⟨rfl, ?_⟩
      dsimp only
      rw [Table.keys_modify]

namespace Registry

/-- Every session has somebody who listens to its events. -/
def Heard (r : Registry) : Prop :=
  ∀ id s, r.any? id = some s → s.reports

/-- An event of the session waits to be taken. -/
def Owes (r : Registry) (id : Nat) : Prop :=
  ∃ e ∈ r.events, e.sessionId = id

/-- From `r` to `r'` sessions stay under their numbers, none comes back from its end, and an
event was sent for each that ended. Events that waited go on waiting. -/
structure Announces (r r' : Registry) : Prop where
  events : ∀ e ∈ r.events, e ∈ r'.events
  sessions : ∀ id s, r.any? id = some s → ∃ s', r'.any? id = some s' ∧
    (s.isTerminal → s'.isTerminal) ∧ (s'.isTerminal → s.isTerminal ∨ r'.Owes id)

variable {r r' r'' : Registry} {id : Nat} {s s' : Session} {closing : Option Closing}

theorem Announces.refl (r : Registry) : r.Announces r :=
  ⟨fun _ he => he, fun _ s hs => ⟨s, hs, id, Or.inl⟩⟩

theorem Owes.mono (h : r.Owes id) (hevents : ∀ e ∈ r.events, e ∈ r'.events) : r'.Owes id := by
  obtain ⟨e, he, hid⟩ := h
  exact ⟨e, hevents e he, hid⟩

theorem Announces.trans (h : r.Announces r') (h' : r'.Announces r'') : r.Announces r'' where
  events := fun e he => h'.events e (h.events e he)
  sessions := by
    intro id s hs
    obtain ⟨s', hs', hstays, hends⟩ := h.sessions id s hs
    obtain ⟨s'', hs'', hstays', hends'⟩ := h'.sessions id s' hs'
    refine ⟨s'', hs'', fun hend => hstays' (hstays hend), fun hend => ?_⟩
    rcases hends' hend with hend' | howes
    · exact (hends hend').imp_right fun howes => howes.mono h'.events
    · exact Or.inr howes

theorem events_settle (r : Registry) (closing : Option Closing) :
    (r.settle closing).events = r.events ++ (closing.bind (·.event)).toList := by
  cases closing with
  | none => exact (List.append_nil _).symm
  | some c => rfl

theorem any?_modify (r : Registry) (id : Nat) (f : Session → Session) (id' : Nat) :
    (r.modify id f).any? id' = if id = id' then (r.any? id').map f else r.any? id' := by
  simp only [modify, any?, Table.get?_modify, beq_iff_eq]

/-- What holds of a registry whose sessions are numbered and listened to, after a step. -/
structure Tells (r r' : Registry) : Prop where
  numbered : r'.Numbered
  heard : r'.Heard
  announces : r.Announces r'

theorem store_tells (hr : r.Numbered) (hheard : r.Heard) (hs : r.any? id = some s)
    (h : s.LeadsTo s' closing) : r.Tells ((r.store s').settle closing) := by
  have hid : s'.id = id := h.id.trans (hr id s hs).1
  have hreplaces := r.store_replaces s'
  rw [hid] at hreplaces
  refine ⟨(hreplaces.numbered hr hs hid).settle closing, fun id' t ht => ?_, fun e he => ?_,
    fun id' t ht => ?_⟩
  · rw [any?_settle, hreplaces.any?] at ht
    by_cases hsame : id = id'
    · rw [if_pos hsame] at ht
      cases ht
      exact h.reports.trans (hheard id s hs)
    · rw [if_neg hsame] at ht
      exact hheard id' t ht
  · rw [events_settle]
    exact List.mem_append_left _ he
  · rw [any?_settle, hreplaces.any?]
    by_cases hsame : id = id'
    · subst hsame
      rw [hs] at ht
      cases ht
      obtain ⟨hstays, hends⟩ := h.isTerminal (hheard id s hs)
      refine ⟨s', if_pos rfl, hstays, fun hend => (hends hend).imp_right ?_⟩
      rintro ⟨e, he, hof⟩
      refine ⟨e, ?_, hof.trans (hr id s hs).1⟩
      rw [events_settle]
      exact List.mem_append_right _ he
    · rw [if_neg hsame]
      exact ⟨t, ht, fun hend => hend, Or.inl⟩

theorem Tells.refl (hr : r.Numbered) (hheard : r.Heard) : r.Tells r :=
  ⟨hr, hheard, .refl r⟩

theorem perform_tells (hr : r.Numbered) (hheard : r.Heard) (id : Nat) (c : SessionCall) :
    r.Tells (r.perform id c) := by
  rw [perform_eq]
  cases hs : r.any? id with
  | none => exact .refl hr hheard
  | some s => exact store_tells hr hheard hs (s.leadsTo_perform c)

theorem share_tells (hr : r.Numbered) (hheard : r.Heard) (id : Nat) (ring : Ring) :
    r.Tells (r.step (.share id ring)) := by
  obtain ⟨hnumbered, hcontinues⟩ := share_continues hr id ring
  refine ⟨hnumbered, fun id' t ht => ?_, fun e he => he, fun id' t ht => ?_⟩
  · rw [step, any?_modify] at ht
    by_cases hsame : id = id'
    · rw [if_pos hsame, Option.map_eq_some_iff] at ht
      obtain ⟨s, hs, rfl⟩ := ht
      exact hheard id' s hs
    · rw [if_neg hsame] at ht
      exact hheard id' t ht
  · rw [step, any?_modify, ht]
    by_cases hsame : id = id'
    · exact ⟨_, if_pos hsame, fun hend => hend, Or.inl⟩
    · exact ⟨t, if_neg hsame, fun hend => hend, Or.inl⟩

/-- A number is used up; a session that could be made is listed under it, has a new handle and
is listened to. -/
theorem create_cases (r : Registry) (config : StreamConfig) :
    (∃ e files, r.create config =
      (.error e, { r with nextId := r.nextId + 1, files := files })) ∨
    ∃ ring files, ring.IsFresh ∧
      let s : Session := {
        id := r.nextId, config := config, ring := ring
        handle := (r.handles.publish ring.mapping.geometry).1, reports := true }
      r.create config = (.ok s, { r with
        nextId := r.nextId + 1
        sessions := r.sessions.put r.nextId s
        listed := r.listed ++ [r.nextId]
        handles := (r.handles.publish ring.mapping.geometry).2
        files := files
        generation := r.generation + 1 }) := by
  unfold create
  dsimp only
  rcases Session.create_cases r.host r.home r.nextId config r.files r.handles with
    ⟨e, files, hmade⟩ | ⟨ring, files, hfresh, hmade⟩
  · rw [hmade]
    exact Or.inl ⟨e, files, rfl⟩
  · rw [hmade]
    exact Or.inr ⟨ring, files, hfresh, rfl⟩

theorem create_tells (hr : r.Numbered) (hheard : r.Heard) (config : StreamConfig) :
    r.Tells (r.create config).2 := by
  have hnumbered := (create_continues hr config).1
  rcases r.create_cases config with ⟨e, files, hmade⟩ | ⟨ring, files, -, hmade⟩
  · rw [hmade] at hnumbered ⊢
    exact ⟨hnumbered, hheard, fun e he => he, fun id s hs => ⟨s, hs, fun hend => hend, Or.inl⟩⟩
  · rw [hmade] at hnumbered ⊢
    refine ⟨hnumbered, fun id s hs => ?_, fun e he => he,
      fun id s hs => ⟨s, ?_, fun hend => hend, Or.inl⟩⟩
    · rcases Table.get?_put_cases hs with ⟨-, rfl⟩ | ⟨-, hs⟩
      · rfl
      · exact hheard id s hs
    · have hne : ¬ r.nextId == id := by
        rw [beq_iff_eq]
        exact Nat.ne_of_gt (hr id s hs).2
      show Table.get? (r.sessions.put _ _) id = some s
      rw [Table.get?_put, if_neg hne]
      exact hs

theorem remove_tells (hr : r.Numbered) (hheard : r.Heard) (id : Nat) :
    r.Tells (r.remove id).2 := by
  unfold remove
  split
  · exact .refl hr hheard
  · obtain ⟨hnumbered, hheard', hannounces⟩ := perform_tells hr hheard id .release
    exact ⟨hnumbered, hheard', hannounces.events, hannounces.sessions⟩

theorem reap_tells (hr : r.Numbered) (hheard : r.Heard) : r.Tells r.reap.2 := by
  unfold reap
  dsimp only
  split
  · exact .refl hr hheard
  · exact ⟨hr, hheard, fun e he => he, fun id s hs => ⟨s, hs, fun hend => hend, Or.inl⟩⟩

theorem step_tells (hr : r.Numbered) (hheard : r.Heard) (t : RegistryStep) :
    r.Tells (r.step t) := by
  cases t with
  | create config => exact create_tells hr hheard config
  | call id c => exact perform_tells hr hheard id c
  | share id ring => exact share_tells hr hheard id ring
  | remove id => exact remove_tells hr hheard id
  | reap => exact reap_tells hr hheard

/-- The registry at a later time, with the same sessions, of which none has ended in between. -/
structure GoesOn (r r' : Registry) : Prop where
  sessions : ∀ id s, r.any? id = some s → ∃ s', r'.any? id = some s' ∧ s.GoesOn s'
  only : ∀ id s', r'.any? id = some s' → ∃ s, r.any? id = some s ∧ s.GoesOn s'
  nextId : r'.nextId = r.nextId
  listed : r'.listed = r.listed
  events : r'.events = r.events
  handles : r'.handles.nextId = r.handles.nextId ∧ r'.handles.entries.keys = r.handles.entries.keys

theorem GoesOn.refl (r : Registry) : r.GoesOn r :=
  ⟨fun _ s hs => ⟨s, hs, .refl s⟩, fun _ s hs => ⟨s, hs, .refl s⟩, rfl, rfl, rfl, rfl, rfl⟩

theorem GoesOn.trans (h : r.GoesOn r') (h' : r'.GoesOn r'') : r.GoesOn r'' where
  sessions := by
    intro id s hs
    obtain ⟨s', hs', hgoes⟩ := h.sessions id s hs
    obtain ⟨s'', hs'', hgoes'⟩ := h'.sessions id s' hs'
    exact ⟨s'', hs'', hgoes.trans hgoes'⟩
  only := by
    intro id s'' hs''
    obtain ⟨s', hs', hgoes'⟩ := h'.only id s'' hs''
    obtain ⟨s, hs, hgoes⟩ := h.only id s' hs'
    exact ⟨s, hs, hgoes.trans hgoes'⟩
  nextId := h'.nextId.trans h.nextId
  listed := h'.listed.trans h.listed
  events := h'.events.trans h.events
  handles := ⟨h'.handles.1.trans h.handles.1, h'.handles.2.trans h.handles.2⟩

theorem GoesOn.numbered (h : r.GoesOn r') (hr : r.Numbered) : r'.Numbered := by
  intro id s' hs'
  obtain ⟨s, hs, hgoes⟩ := h.only id s' hs'
  rw [h.nextId]
  exact ⟨hgoes.id.trans (hr id s hs).1, (hr id s hs).2⟩

theorem GoesOn.tells (h : r.GoesOn r') (hr : r.Numbered) (hheard : r.Heard) : r.Tells r' where
  numbered := h.numbered hr
  heard := by
    intro id s' hs'
    obtain ⟨s, hs, hgoes⟩ := h.only id s' hs'
    exact hgoes.reports.trans (hheard id s hs)
  announces := by
    refine ⟨fun e he => by rw [h.events]; exact he, fun id s hs => ?_⟩
    obtain ⟨s', hs', hgoes⟩ := h.sessions id s hs
    exact ⟨s', hs', fun hend => hgoes.isTerminal.trans hend,
      fun hend => Or.inl (hgoes.isTerminal.symm.trans hend)⟩

theorem modify_goesOn (r : Registry) (id : Nat) {f : Session → Session}
    (hf : ∀ s : Session, s.GoesOn (f s)) : r.GoesOn (r.modify id f) := by
  refine ⟨fun id' s hs => ?_, fun id' s' hs' => ?_, rfl, rfl, rfl, rfl, rfl⟩
  · rw [any?_modify, hs]
    by_cases hsame : id = id'
    · exact ⟨f s, if_pos hsame, hf s⟩
    · exact ⟨s, if_neg hsame, .refl s⟩
  · rw [any?_modify] at hs'
    by_cases hsame : id = id'
    · rw [if_pos hsame, Option.map_eq_some_iff] at hs'
      obtain ⟨s, hs, rfl⟩ := hs'
      exact ⟨s, hs, hf s⟩
    · rw [if_neg hsame] at hs'
      exact ⟨s', hs', .refl s'⟩

theorem store_goesOn (hr : r.Numbered) (hs : r.any? id = some s) (h : s.GoesOn s') :
    r.GoesOn (r.store s') := by
  have hany := r.any?_store s'
  rw [h.id.trans (hr id s hs).1] at hany
  refine ⟨fun id' t ht => ?_, fun id' t' ht' => ?_, rfl, rfl, rfl, rfl, rfl⟩
  · rw [hany]
    by_cases hsame : id = id'
    · rw [← hsame, hs] at ht
      cases ht
      exact ⟨s', if_pos hsame, h⟩
    · exact ⟨t, (if_neg hsame).trans ht, .refl t⟩
  · rw [hany] at ht'
    by_cases hsame : id = id'
    · rw [if_pos hsame] at ht'
      cases ht'
      rw [← hsame]
      exact ⟨s, hs, h⟩
    · rw [if_neg hsame] at ht'
      exact ⟨t', ht', .refl t'⟩

theorem apply_goesOn {α : Type} (hr : r.Numbered) (id : Nat)
    {op : Session → Except StreamError α × Session} (hop : ∀ s : Session, s.GoesOn (op s).2) :
    r.GoesOn (r.apply id op).2 := by
  unfold apply
  cases hs : r.any? id with
  | none => exact .refl r
  | some s => exact store_goesOn hr hs (hop s)

theorem claim_goesOn (r : Registry) (handle : Nat) : r.GoesOn (r.claim handle).2 where
  sessions := fun _ s hs => ⟨s, hs, .refl s⟩
  only := fun _ s hs => ⟨s, hs, .refl s⟩
  nextId := rfl
  listed := rfl
  events := rfl
  handles := r.handles.keys_claim handle

end Registry
end Patchbay
