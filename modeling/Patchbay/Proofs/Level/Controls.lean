import Patchbay.Proofs.Number.Shares
import Patchbay.Proofs.Server.Steady
import Patchbay.Proofs.Session.Accounts

/-!
# Controls of sessions

The desk copies volume and mute of a class into the controls of its sessions, when a session is
made and when either is changed. Calls on a session leave its controls alone. So the listed
sessions have the controls that the desk wants, as long as each change of the desk is pushed to
all sessions that it concerns.
-/
namespace Patchbay

/-- The session still has its configuration and its controls. -/
def Session.KeepsControls (s s' : Session) : Prop :=
  s'.config = s.config ∧ s'.controls = s.controls

/-- Who is on the list of `r'` was on that of `r`, with the same controls. -/
def Registry.KeepsControls (r r' : Registry) : Prop :=
  ∀ id ∈ r'.listed, ∀ s', r'.any? id = some s' →
    id ∈ r.listed ∧ ∃ s, r.any? id = some s ∧ s.KeepsControls s'

namespace VolumeDesk

/-- The controls that the desk wants for a stream. Recordings are left at full volume. -/
def controls (d : VolumeDesk) (i : StreamIntent) : Controls :=
  match i.volumeClass? with
  | none => {}
  | some c => { volume := d.volume c, isMuted := d.isSilent c }

/-- The listed sessions have the controls that the desk wants. -/
def Governs (d : VolumeDesk) (r : Registry) : Prop :=
  ∀ id ∈ r.listed, ∀ s, r.any? id = some s → s.controls = d.controls s.intent

/-- All volumes are from zero to one. -/
def HoldsShares (d : VolumeDesk) : Prop :=
  ∀ c, (d.volume c).IsShare

end VolumeDesk

namespace Session

theorem KeepsControls.refl (s : Session) : s.KeepsControls s :=
  ⟨rfl, rfl⟩

theorem keepsControls_flushRing (s : Session) : s.KeepsControls s.flushRing.2 := by
  unfold flushRing
  split <;> exact ⟨rfl, rfl⟩

theorem keepsControls_pause (s : Session) (discard : Bool) :
    s.KeepsControls (s.pause discard).2 := by
  unfold pause
  split
  · have hflush := keepsControls_flushRing { s with state := .paused }
    dsimp only
    split
    · split
      · rename_i hok
        rw [hok] at hflush
        exact hflush
      · rename_i herror
        rw [herror] at hflush
        exact ⟨hflush.1, hflush.2⟩
    · exact ⟨rfl, rfl⟩
  · exact .refl s

theorem keepsControls_bind (s : Session) (d : Device) : s.KeepsControls (s.bind d).2 := by
  unfold bind
  split
  · exact .refl s
  · dsimp only
    split
    · split <;> exact ⟨rfl, rfl⟩
    · split <;> exact ⟨rfl, rfl⟩

theorem keepsControls_perform (s : Session) (c : SessionCall) :
    s.KeepsControls (s.perform c).2.1 := by
  cases c with
  | resolve =>
      show s.KeepsControls s.resolve.2
      unfold resolve
      split
      · exact .refl s
      · split <;> exact ⟨rfl, rfl⟩
  | start =>
      show s.KeepsControls s.start.2
      unfold start
      split
      · split <;> exact ⟨rfl, rfl⟩
      · split <;> exact ⟨rfl, rfl⟩
      · exact .refl s
  | pause discard => exact s.keepsControls_pause discard
  | resume =>
      show s.KeepsControls s.resume.2
      unfold resume
      split
      · split <;> exact ⟨rfl, rfl⟩
      · exact .refl s
  | stop =>
      show s.KeepsControls s.stop.2
      unfold stop
      dsimp only
      split
      · exact ⟨rfl, rfl⟩
      · exact ⟨rfl, rfl⟩
      · split <;> exact ⟨rfl, rfl⟩
      · exact .refl s
  | flush =>
      show s.KeepsControls s.flush.2
      unfold flush
      split
      · exact s.keepsControls_flushRing
      · exact s.keepsControls_flushRing
      · exact .refl s
  | bind d => exact s.keepsControls_bind d
  | release =>
      show s.KeepsControls s.release.2.1
      unfold release
      split <;> exact ⟨rfl, rfl⟩
  | invalidate reason =>
      show s.KeepsControls (s.invalidate reason).1
      unfold invalidate
      split <;> exact ⟨rfl, rfl⟩
  | write frame t =>
      show s.KeepsControls (s.write frame t).2
      unfold write
      split
      · exact .refl s
      · split <;> exact ⟨rfl, rfl⟩
  | read want =>
      show s.KeepsControls (s.read want).2
      unfold read
      split
      · exact .refl s
      · split <;> exact ⟨rfl, rfl⟩
  | info => exact .refl s

end Session

namespace Registry

variable {r r' r'' : Registry} {id : Nat}

theorem KeepsControls.refl (r : Registry) : r.KeepsControls r :=
  fun _ hid s hs => ⟨hid, s, hs, .refl s⟩

theorem KeepsControls.trans (h : r.KeepsControls r') (h' : r'.KeepsControls r'') :
    r.KeepsControls r'' := by
  intro id hid s'' hs''
  obtain ⟨hid', s', hs', hlater⟩ := h' id hid s'' hs''
  obtain ⟨hid, s, hs, hfirst⟩ := h id hid' s' hs'
  exact ⟨hid, s, hs, hlater.1.trans hfirst.1, hlater.2.trans hfirst.2⟩

theorem KeepsControls.shrink (h : r.KeepsControls r') {listed : List Nat}
    (hlisted : ∀ id ∈ listed, id ∈ r'.listed) (hr : r''.listed = listed)
    (hany : ∀ id, r''.any? id = r'.any? id) : r.KeepsControls r'' := by
  intro id hid s hs
  rw [hr] at hid
  rw [hany] at hs
  exact h id (hlisted id hid) s hs

theorem keepsControls_perform (hr : r.Numbered) (id : Nat) (c : SessionCall) :
    r.KeepsControls (r.perform id c) := by
  intro id' hid' s' hs'
  rw [(r.listed_perform id c).1] at hid'
  rcases perform_cases hr hs' with ⟨s, hs, rfl, rfl⟩ | ⟨-, hold⟩
  · exact ⟨hid', s, hs, s.keepsControls_perform c⟩
  · exact ⟨hid', s', hold, .refl s'⟩

theorem keepsControls_modify (r : Registry) (id : Nat) {f : Session → Session}
    (hf : ∀ s : Session, s.KeepsControls (f s)) : r.KeepsControls (r.modify id f) := by
  intro id' hid' s' hs'
  refine ⟨hid', ?_⟩
  rw [any?_modify] at hs'
  split at hs'
  · obtain ⟨s, hs, rfl⟩ := Option.map_eq_some_iff.mp hs'
    exact ⟨s, hs, hf s⟩
  · exact ⟨s', hs', .refl s'⟩

theorem keepsControls_remove (hr : r.Numbered) (id : Nat) : r.KeepsControls (r.remove id).2 := by
  rcases r.remove_cases id with hnone | ⟨-, hremove⟩
  · rw [hnone]
    exact .refl r
  · rw [hremove]
    refine (keepsControls_perform hr id .release).shrink (fun id' hid' => ?_) rfl fun _ => rfl
    rw [(r.listed_perform id .release).1]
    exact (List.mem_filter.mp hid').1

theorem keepsControls_reap (r : Registry) : r.KeepsControls r.reap.2 := by
  obtain ⟨generation, hreap⟩ := r.reap_eq
  rw [hreap]
  exact (KeepsControls.refl r).shrink (fun id hid => (List.mem_filter.mp hid).1) rfl fun _ => rfl

theorem any?_foldl_modify (f : Session → Session) {ids : List Nat} (hids : ids.Nodup)
    (r : Registry) (id : Nat) :
    (ids.foldl (fun r id => r.modify id f) r).any? id =
      if id ∈ ids then (r.any? id).map f else r.any? id := by
  induction ids generalizing r with
  | nil => rfl
  | cons head ids ih =>
      obtain ⟨hnot, hids⟩ := List.nodup_cons.mp hids
      rw [List.foldl_cons, ih hids, any?_modify]
      by_cases hhead : head = id
      · subst hhead
        rw [if_neg hnot, if_pos rfl, if_pos List.mem_cons_self]
      · have hmem : id ∈ head :: ids ↔ id ∈ ids := by
          rw [List.mem_cons]
          exact or_iff_right (Ne.symm hhead)
        rw [if_neg hhead]
        simp only [hmem]

end Registry

namespace VolumeDesk

variable {d d' : VolumeDesk} {r r' : Registry} {s : Session} {c : VolumeClass}

theorem controls_congr (hclasses : d'.classes = d.classes) (hringer : d'.ringer = d.ringer)
    (i : StreamIntent) : d'.controls i = d.controls i := by
  unfold controls isSilent volume isMuted entry
  rw [hclasses, hringer]

theorem Governs.keeps (h : d.Governs r) (hkeeps : r.KeepsControls r') : d.Governs r' := by
  intro id hid s' hs'
  obtain ⟨hid, s, hs, hconfig, hcontrols⟩ := hkeeps id hid s' hs'
  rw [hcontrols, Session.intent, hconfig]
  exact h id hid s hs

theorem intent_adjust (d : VolumeDesk) (s : Session) : (d.adjust s).intent = s.intent := by
  unfold adjust
  split <;> rfl

theorem HoldsShares.adjust (h : d.HoldsShares) (hs : s.intent.volumeClass? = some c) :
    (d.adjust s).controls = d.controls s.intent := by
  unfold VolumeDesk.adjust controls
  rw [hs]
  dsimp only [Controls.setVolume, Controls.setMuted]
  rw [(h c).clamp]

theorem Governs.create (h : d.Governs r) (hshares : d.HoldsShares) (hr : r.Numbered)
    {config : StreamConfig} (hmade : r.create config = (.ok s, r')) :
    d.Governs (d.attach r' s.id) := by
  rcases r.create_cases config with ⟨e, files, hcase⟩ | ⟨ring, files, -, hcase⟩
  · rw [hmade] at hcase
    cases hcase
  · rw [hmade] at hcase
    generalize hnew : ({ id := r.nextId, config := config, ring := ring
                         handle := (r.handles.publish ring.mapping.geometry).1
                         reports := true } : Session) = new at hcase
    have hid : new.id = r.nextId := by rw [← hnew]
    have hfull : new.controls = {} := by rw [← hnew]
    cases hcase
    intro id hlisted t ht
    rw [attach, Registry.any?_modify] at ht
    have hfound : ∀ t, Table.get? (r.sessions.put r.nextId s) id = some t ↔
        id = r.nextId ∧ t = s ∨ r.any? id = some t := fun t => hr.get?_put_next
    by_cases hsame : s.id = id
    · rw [if_pos hsame, Option.map_eq_some_iff] at ht
      obtain ⟨t, ht, rfl⟩ := ht
      rcases (hfound t).mp ht with ⟨-, rfl⟩ | hold
      · rw [intent_adjust]
        cases hclass : t.intent.volumeClass? with
        | none =>
            rw [adjust, hclass, controls, hclass]
            exact hfull
        | some c => exact hshares.adjust hclass
      · have hlt := (hr id t hold).2
        rw [← hsame, hid] at hlt
        exact absurd hlt (Nat.lt_irrefl _)
    · rw [if_neg hsame] at ht
      rcases (hfound t).mp ht with ⟨hnext, -⟩ | hold
      · exact absurd (hid.trans hnext.symm) hsame
      · rcases List.mem_append.mp hlisted with hlisted | hlisted
        · exact h id hlisted t hold
        · rw [List.mem_singleton] at hlisted
          exact absurd (hid.trans hlisted.symm) hsame

/-- What a push makes of a listed session: it is adjusted, unless its class was not meant. -/
theorem push_cases {only : Option VolumeClass} (hr : r.listed.Nodup) {id : Nat}
    (hid : id ∈ r.listed) {t : Session} (ht : (d.push only r).any? id = some t) :
    ∃ s, r.any? id = some s ∧
      (t = d.adjust s ∨
        t = s ∧ ∀ c, s.intent.volumeClass? = some c → ∃ f, only = some f ∧ c ≠ f) := by
  unfold VolumeDesk.push at ht
  dsimp only at ht
  rw [Registry.any?_foldl_modify _ hr, if_pos hid, Option.map_eq_some_iff] at ht
  obtain ⟨s, hs, rfl⟩ := ht
  refine ⟨s, hs, ?_⟩
  split
  · exact Or.inl rfl
  · rename_i hnot
    refine Or.inr ⟨rfl, fun c hclass => ?_⟩
    rw [hclass] at hnot
    cases only with
    | none => exact absurd rfl hnot
    | some f => exact ⟨f, rfl, by simpa using hnot⟩

/-- The desk was changed for some classes at most, and these were pushed. -/
theorem Governs.push (h : d.Governs r) (hr : r.listed.Nodup) (hshares : d'.HoldsShares)
    {only : Option VolumeClass}
    (hothers : ∀ c f, only = some f → c ≠ f →
      d'.volume c = d.volume c ∧ d'.isSilent c = d.isSilent c) :
    d'.Governs (d'.push only r) := by
  intro id hid t ht
  rw [(push_goesOn d' only r).listed] at hid
  obtain ⟨s, hs, hpushed⟩ := push_cases hr hid ht
  have hbefore := h id hid s hs
  have hsame : (∀ c, s.intent.volumeClass? = some c → ∃ f, only = some f ∧ c ≠ f) →
      d'.controls s.intent = d.controls s.intent := by
    intro hunmeant
    unfold controls
    cases hclass : s.intent.volumeClass? with
    | none => rfl
    | some c =>
        obtain ⟨f, hf, hne⟩ := hunmeant c hclass
        obtain ⟨hvolume, hsilent⟩ := hothers c f hf hne
        dsimp only
        rw [hvolume, hsilent]
  rcases hpushed with rfl | ⟨rfl, hunmeant⟩
  · rw [intent_adjust]
    cases hclass : s.intent.volumeClass? with
    | none =>
        rw [VolumeDesk.adjust, hclass, hsame fun c hc => by rw [hclass] at hc; cases hc]
        exact hbefore
    | some c => exact hshares.adjust hclass
  · rw [hsame hunmeant]
    exact hbefore

/-- Where one class is changed, the entries of the others are as they were. -/
theorem entry_modify (d : VolumeDesk) (f : ClassVolume → ClassVolume) (c c' : VolumeClass) :
    ({ d with classes := d.classes.modify c f } : VolumeDesk).entry c' =
      if c = c' then ((d.classes.get? c').map f).getD { volume := Single.zero }
      else d.entry c' := by
  unfold entry
  dsimp only
  rw [Table.get?_modify]
  by_cases hsame : c = c'
  · rw [if_pos hsame, if_pos (beq_iff_eq.mpr hsame)]
  · rw [if_neg hsame, if_neg (by rw [beq_iff_eq]; exact hsame)]

theorem HoldsShares.modify (h : d.HoldsShares) {f : ClassVolume → ClassVolume}
    (hf : ∀ v : ClassVolume, v.volume.IsShare → (f v).volume.IsShare) (c : VolumeClass) :
    ({ d with classes := d.classes.modify c f } : VolumeDesk).HoldsShares := by
  intro c'
  rw [volume, entry_modify]
  split
  · have hbefore := h c'
    unfold volume entry at hbefore
    cases hget : d.classes.get? c' with
    | none => exact Single.isShare_zero
    | some v =>
        rw [hget] at hbefore
        exact hf v hbefore
  · exact h c'

/-- Both bounds of valid settings are cut to, so a level is a share of the highest. -/
theorem isShare_toVolume {v : VolumeSettings} (hv : v.minLevel ≤ v.maxLevel) (level : UInt8) :
    (v.toVolume level).IsShare := by
  unfold VolumeSettings.toVolume
  split
  · exact Single.isShare_zero
  · rename_i hmax
    have hpositive : 0 < v.maxLevel.toNat := by
      refine Nat.pos_of_ne_zero fun hzero => hmax ?_
      exact UInt8.toNat_inj.mp hzero
    refine Single.isShare_ofRatio hpositive ?_
    split
    · exact UInt8.le_iff_toNat_le.mp hv
    · split
      · exact Nat.le_refl _
      · rename_i hnot
        exact Nat.le_of_not_lt fun hlt => hnot (UInt8.lt_iff_toNat_lt.mpr hlt)

theorem holdsShares_ofSettings {v : VolumeSettings} (hv : v.minLevel ≤ v.maxLevel) :
    (ofSettings v).HoldsShares := by
  intro c
  have hentry : (ofSettings v).volume c = v.toVolume (v.levelFor c) := by cases c <;> rfl
  rw [hentry]
  exact isShare_toVolume hv _

theorem Governs.setVolume (h : d.Governs r) (hshares : d.HoldsShares) (hr : r.listed.Nodup)
    (c : VolumeClass) (v : Single) :
    (d.setVolume r c v).2.1.HoldsShares ∧
      (d.setVolume r c v).2.1.Governs (d.setVolume r c v).2.2 := by
  unfold VolumeDesk.setVolume
  split
  · rename_i hv
    have hshares' := hshares.modify (f := ({ · with volume := v })) (fun _ _ => by
      exact ⟨(Bool.and_eq_true_iff.mp hv).1, (Bool.and_eq_true_iff.mp hv).2⟩) c
    refine ⟨hshares', h.push hr hshares' fun c' f hf hne => ?_⟩
    cases hf
    rw [volume, isSilent, isMuted, entry_modify, if_neg (Ne.symm hne)]
    exact ⟨rfl, rfl⟩
  · exact ⟨hshares, h⟩

theorem Governs.setMuted (h : d.Governs r) (hshares : d.HoldsShares) (hr : r.listed.Nodup)
    (c : VolumeClass) (m : Bool) :
    (d.setMuted r c m).1.HoldsShares ∧ (d.setMuted r c m).1.Governs (d.setMuted r c m).2 := by
  have hshares' := hshares.modify (f := ({ · with isMuted := m })) (fun _ hv => hv) c
  refine ⟨hshares', h.push hr hshares' fun c' f hf hne => ?_⟩
  cases hf
  rw [volume, isSilent, isMuted, entry_modify, if_neg (Ne.symm hne)]
  exact ⟨rfl, rfl⟩

theorem Governs.setRinger (h : d.Governs r) (hshares : d.HoldsShares) (hr : r.listed.Nodup)
    (m : RingerMode) :
    (d.setRinger r m).1.HoldsShares ∧ (d.setRinger r m).1.Governs (d.setRinger r m).2 := by
  have hshares' : ({ d with ringer := m } : VolumeDesk).HoldsShares := hshares
  refine ⟨hshares', h.push hr hshares' fun c f hf hne => ?_⟩
  cases hf
  refine ⟨rfl, ?_⟩
  rw [isSilent, isSilent, decide_eq_false hne]
  rfl

theorem setDeviceActive_keeps (d : VolumeDesk) (t : DeviceType) (active : Bool) :
    (d.setDeviceActive t active).2.classes = d.classes ∧
      (d.setDeviceActive t active).2.ringer = d.ringer := by
  unfold setDeviceActive
  dsimp only
  split
  · exact ⟨rfl, rfl⟩
  · split
    · exact ⟨rfl, rfl⟩
    · split <;> exact ⟨rfl, rfl⟩

theorem Governs.applyLevels (h : d.Governs r) (hshares : d.HoldsShares) (hr : r.listed.Nodup)
    (changes : List (VolumeClass × UInt8)) {v : VolumeSettings} (hv : v.minLevel ≤ v.maxLevel) :
    (d.applyLevels r changes v).1.HoldsShares ∧
      (d.applyLevels r changes v).1.Governs (d.applyLevels r changes v).2 := by
  have hlevels : ∀ (changes : List (VolumeClass × UInt8)) (t : Table VolumeClass ClassVolume),
      ({ d with classes := t } : VolumeDesk).HoldsShares →
      ({ d with classes := changes.foldl (fun t (change : VolumeClass × UInt8) =>
        t.modify change.1 ({ · with volume := v.toVolume change.2 })) t } :
          VolumeDesk).HoldsShares := by
    intro changes
    induction changes with
    | nil => exact fun t ht => ht
    | cons change changes ih =>
        intro t ht
        have hstep : HoldsShares { d with
            classes := t.modify change.1 ({ · with volume := v.toVolume change.2 }) } := by
          have hlevel := isShare_toVolume hv change.2
          generalize v.toVolume change.2 = volume at hlevel ⊢
          exact ht.modify (f := ({ · with volume := volume })) (fun _ _ => hlevel) change.1
        exact ih _ hstep
  have hshares' := hlevels changes d.classes hshares
  exact ⟨hshares', h.push hr hshares' fun c f hf => by cases hf⟩

end VolumeDesk
end Patchbay
