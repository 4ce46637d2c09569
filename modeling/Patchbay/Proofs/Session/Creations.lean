import Patchbay.Proofs.Ring.Files
import Patchbay.Session.Registry

/-!
# Creations that fail

A ring in a file takes four steps: the geometry is checked, the file is made, it is given its
length, and it is mapped. A failure of the first two changes nothing. After the second the file
is there, and no later failure takes it away again, neither for a ring nor for the session that
was to have it.
-/
namespace Patchbay

/-- The host fails the ring only when its file has been made. -/
def RingGeometry.Strands (g : RingGeometry) (host : Host) (d : Directory) (path : String) : Prop :=
  g.check = .ok () ∧ ¬ d.has path ∧ ¬ (host.canSize g.mappedBytes && host.canMap g.mappedBytes)

/-- If the ring cannot be made, the same files are there as before. -/
def RingGeometry.FailsCleanly (g : RingGeometry) (host : Host) (d : Directory) (path : String)
    (number : Nat) : Prop :=
  ∀ e, (g.createFile host d path number).1 = .error e →
    ∀ p, (g.createFile host d path number).2.has p = d.has p

namespace RingGeometry

variable {g : RingGeometry} {host : Host} {d : Directory} {path : String} {number : Nat}

theorem createFile_of_strands (h : g.Strands host d path) (number : Nat) :
    g.createFile host d path number = (.error (hostFailure path), d.put path number) := by
  obtain ⟨hcheck, hfree, hhost⟩ := h
  have hmade := g.makes_createFile host d path number
  generalize g.createFile host d path number = answer at hmade ⊢
  cases hmade with
  | refused e cause =>
      rcases cause with he | hhas
      · cases hcheck.symm.trans he
      · exact absurd hhas hfree
  | stranded => rfl
  | made _ done => exact absurd done hhost

theorem createFile_of_not_strands (h : ¬ g.Strands host d path) {e : StreamError}
    (herror : (g.createFile host d path number).1 = .error e) :
    (g.createFile host d path number).2 = d := by
  have hmade := g.makes_createFile host d path number
  generalize g.createFile host d path number = answer at hmade herror ⊢
  cases hmade with
  | refused => rfl
  | stranded checked free failed => exact absurd ⟨checked, free, failed⟩ h
  | made => cases herror

theorem failsCleanly_iff : g.FailsCleanly host d path number ↔ ¬ g.Strands host d path := by
  constructor
  · intro hclean hstrands
    have hnew : (g.createFile host d path number).2.has path := by
      rw [createFile_of_strands hstrands]
      simp [Table.has_put]
    rw [hclean _ (by rw [createFile_of_strands hstrands]) path] at hnew
    exact hstrands.2.1 hnew
  · intro hstrands e herror p
    rw [createFile_of_not_strands hstrands herror]

end RingGeometry

/-- The geometry of the ring of a session. -/
def StreamConfig.ring? (config : StreamConfig) : Option RingGeometry :=
  match config.check with
  | .error _ => none
  | .ok () => config.spanBytes?.map fun spanSize => ⟨config.spanCount, spanSize⟩

namespace Registry

/-- The host fails the ring of the next session only when its file has been made. -/
def Strands (r : Registry) (config : StreamConfig) : Prop :=
  ∃ home g, r.home = some home ∧ config.ring? = some g ∧
    g.Strands r.host r.files (home.path r.nextId)

/-- If the session cannot be made, the same files are there as before. -/
def FailsCleanly (r : Registry) (config : StreamConfig) : Prop :=
  ∀ e, (r.create config).1 = .error e →
    ∀ p, (r.create config).2.files.has p = r.files.has p

end Registry

namespace Session

variable {host : Host} {home : Option RingHome} {id : Nat} {config : StreamConfig}
variable {files : Directory} {handles : HandleTable} {e : StreamError}

/-- A session that cannot be made has no handle, and the files are those that its ring left. -/
theorem create_of_error (h : (create host home id config files handles).1 = .error e) :
    (create host home id config files handles).2.2 = handles ∧
      ((create host home id config files handles).2.1 = files ∨
        ∃ place g error, home = some place ∧ config.ring? = some g ∧
          (g.createFile host files (place.path id) id).1 = .error error ∧
          (create host home id config files handles).2.1 =
            (g.createFile host files (place.path id) id).2) := by
  unfold create StreamConfig.ring? at *
  cases hcheck : config.check with
  | error e => exact ⟨rfl, Or.inl rfl⟩
  | ok _ =>
      cases hspan : config.spanBytes? with
      | none => exact ⟨rfl, Or.inl rfl⟩
      | some spanSize =>
          rw [hcheck, hspan] at h
          dsimp only at h ⊢
          cases home with
          | none =>
              dsimp only at h ⊢
              cases hmade : RingGeometry.createAnonymous ⟨config.spanCount, spanSize⟩ host with
              | error e => exact ⟨rfl, Or.inl rfl⟩
              | ok ring =>
                  rw [hmade] at h
                  cases h
          | some place =>
              dsimp only at h ⊢
              cases hmade : RingGeometry.createFile ⟨config.spanCount, spanSize⟩ host files
                  (place.path id) id with
              | mk answer files' =>
                  rw [hmade] at h
                  cases answer with
                  | error error =>
                      refine ⟨rfl, Or.inr ⟨place, _, error, rfl, rfl, ?_, ?_⟩⟩ <;> rw [hmade]
                  | ok ring => cases h

end Session

namespace Registry

variable {r : Registry} {config : StreamConfig} {e : StreamError}

theorem create_of_strands (h : r.Strands config) :
    ∃ home, r.home = some home ∧ ¬ r.files.has (home.path r.nextId) ∧
      r.create config = (.error (hostFailure (home.path r.nextId)), { r with
        nextId := r.nextId + 1
        files := r.files.put (home.path r.nextId) r.nextId }) := by
  obtain ⟨home, g, hhome, hring, hstrands⟩ := h
  refine ⟨home, hhome, hstrands.2.1, ?_⟩
  have hmade := RingGeometry.createFile_of_strands hstrands r.nextId
  unfold StreamConfig.ring? at hring
  unfold create Session.create
  cases hcheck : config.check with
  | error e =>
      rw [hcheck] at hring
      cases hring
  | ok _ =>
      rw [hcheck] at hring
      obtain ⟨spanSize, hspan, rfl⟩ := Option.map_eq_some_iff.mp hring
      rw [hspan, hhome]
      dsimp only
      rw [hmade]

theorem error_of_create_error (h : (r.create config).1 = .error e) :
    (Session.create r.host r.home r.nextId config r.files r.handles).1 = .error e := by
  unfold create at h
  dsimp only at h
  split at h
  · rename_i hmade
    rw [hmade]
    exact h
  · cases h

/-- A session that cannot be made uses up its number; otherwise only files can be left of it. -/
theorem create_of_error (h : (r.create config).1 = .error e) :
    (r.create config).2 = { r with
      nextId := r.nextId + 1
      files := (Session.create r.host r.home r.nextId config r.files r.handles).2.1 } := by
  have hmade := error_of_create_error h
  have hhandles := (Session.create_of_error hmade).1
  unfold create
  dsimp only
  rw [hmade, hhandles]

theorem failsCleanly_iff : r.FailsCleanly config ↔ ¬ r.Strands config := by
  constructor
  · intro hclean hstrands
    obtain ⟨home, -, hfree, hcreate⟩ := create_of_strands hstrands
    have hnew : (r.create config).2.files.has (home.path r.nextId) := by
      rw [hcreate]
      simp [Table.has_put]
    rw [hclean _ (by rw [hcreate]) _] at hnew
    exact hfree hnew
  · intro hstrands e herror p
    rw [create_of_error herror]
    rcases (Session.create_of_error (error_of_create_error herror)).2 with
      hsame | ⟨home, g, error, hhome, hring, hfailed, hfiles⟩
    · rw [hsame]
    · have hg : ¬ g.Strands r.host r.files (home.path r.nextId) :=
        fun h => hstrands ⟨home, g, hhome, hring, h⟩
      rw [hfiles, RingGeometry.createFile_of_not_strands hg hfailed]

end Registry

/-- A ring, or a session, that cannot be made leaves no file behind, exactly if it is not the host
that fails it. Handles and sessions are as before in any case. -/
theorem failures_leave_no_file_iff (g : RingGeometry) (host : Host) (d : Directory)
    (path : String) (number : Nat) (r : Registry) (config : StreamConfig) :
    (g.FailsCleanly host d path number ↔ ¬ g.Strands host d path) ∧
      (r.FailsCleanly config ↔ ¬ r.Strands config) ∧
      ∀ e, (r.create config).1 = .error e → (r.create config).2.handles = r.handles ∧
        (r.create config).2.sessions = r.sessions ∧ (r.create config).2.listed = r.listed := by
  refine ⟨RingGeometry.failsCleanly_iff, Registry.failsCleanly_iff, fun e herror => ?_⟩
  rw [Registry.create_of_error herror]
  exact ⟨rfl, rfl, rfl⟩

/-- A span count that is refused, and a session that is too long for the host. -/
theorem third_span_refused_cleanly :
    let config : StreamConfig :=
      ⟨.render .music, { channels := 65535, format := .f32le }, 1000, 0x80000000, 8192⟩
    let r : Registry := { home := some ⟨"/rings", "7"⟩ }
    RingGeometry.FailsCleanly ⟨3, 4⟩ {} ∅ "/r" 0 ∧ r.Strands config ∧ ¬ r.FailsCleanly config ∧
      (r.create config).2.handles = r.handles := by
  intro config r
  have hstrands : r.Strands config :=
    ⟨_, ⟨262144, 2147450880⟩, rfl, by decide +kernel, rfl, by decide +kernel, by decide +kernel⟩
  obtain ⟨home, -, -, hcreate⟩ := Registry.create_of_strands hstrands
  obtain ⟨hring, hsession, hkept⟩ :=
    failures_leave_no_file_iff ⟨3, 4⟩ {} ∅ "/r" 0 r config
  refine ⟨hring.mpr fun h => ?_, hstrands, fun h => hsession.mp h hstrands,
    (hkept _ (congrArg Prod.fst hcreate)).1⟩
  cases h.1

/-- The longest geometry that is accepted is more than a file can hold. -/
theorem longest_ring_leaves_file :
    RingGeometry.createFile ⟨0x80000000, 0xffffffff⟩ {} ∅ "/ring" 0 =
        (.error (hostFailure "/ring"), .ofList [("/ring", 0)]) ∧
      ¬ RingGeometry.FailsCleanly ⟨0x80000000, 0xffffffff⟩ {} ∅ "/ring" 0 := by
  have hstrands : RingGeometry.Strands ⟨0x80000000, 0xffffffff⟩ {} ∅ "/ring" :=
    ⟨rfl, by decide, by decide +kernel⟩
  exact ⟨RingGeometry.createFile_of_strands hstrands 0,
    fun h => RingGeometry.failsCleanly_iff.mp h hstrands⟩

end Patchbay
