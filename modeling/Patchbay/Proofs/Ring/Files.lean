import Patchbay.Proofs.Tables
import Patchbay.Ring.Workspace

/-!
# Whose file goes when

Rings are made in a directory, opened, released and dropped in any order, and names are used
again. A mapping that made its file removes it by name, when it is released and once more when it
is dropped. By then the name can be that of a new file: as long as no such name was taken again,
every file stays until the mapping that made it is released or dropped, and goes with it.
-/
namespace Patchbay

namespace RingGeometry

/-- What may come of making a file and a ring in it. -/
inductive Makes (g : RingGeometry) (host : Host) (d : Directory) (path : String) (number : Nat) :
    Except StreamError Ring × Directory → Prop where
  | refused (e : StreamError) (cause : g.check = .error e ∨ d.has path) :
    Makes g host d path number (.error e, d)
  | stranded (checked : g.check = .ok ()) (free : ¬ d.has path)
      (failed : ¬ (host.canSize g.mappedBytes && host.canMap g.mappedBytes)) :
    Makes g host d path number (.error (hostFailure path), d.put path number)
  | made (free : ¬ d.has path)
      (done : host.canSize g.mappedBytes && host.canMap g.mappedBytes) :
    Makes g host d path number
      (.ok ⟨{ geometry := g, path := some path }, g.fresh⟩, d.put path number)

theorem makes_createFile (g : RingGeometry) (host : Host) (d : Directory) (path : String)
    (number : Nat) : g.Makes host d path number (g.createFile host d path number) := by
  unfold createFile
  cases hcheck : g.check with
  | error e => exact .refused e (Or.inl hcheck)
  | ok _ =>
      dsimp only
      by_cases hfree : d.has path
      · rw [if_pos hfree]
        exact .refused _ (Or.inr hfree)
      · rw [if_neg hfree]
        by_cases hhost : host.canSize g.mappedBytes && host.canMap g.mappedBytes
        · rw [if_pos hhost]
          exact .made hfree hhost
        · rw [if_neg hhost]
          exact .stranded hcheck hfree hhost

end RingGeometry

inductive FileStep where
  | create (path : String) (g : RingGeometry)
  | openPeer (path : String)
  | release (mapping : Nat)
  | drop (mapping : Nat)
deriving DecidableEq, Repr

/-- The step ends what the mapping does for its file. -/
def FileStep.Parts (t : FileStep) (i : Nat) : Prop :=
  t = .release i ∨ t = .drop i

namespace RingWorkspace

/-- A directory of files that others made. -/
def ofFiles (host : Host) (contents : List (String × List UInt8)) : RingWorkspace :=
  contents.foldl (fun w c => w.putFile c.1 c.2) { host := host }

def fileStep (w : RingWorkspace) : FileStep → RingWorkspace
  | .create path g => (w.createFile path g).2
  | .openPeer path => (w.openFile path).2
  | .release i => w.release i
  | .drop i => w.drop i

def fileRun (w : RingWorkspace) (steps : List FileStep) : RingWorkspace :=
  steps.foldl fileStep w

/-- Mapping `i` made file number `n`. -/
def Owns (w : RingWorkspace) (i n : Nat) : Prop :=
  ∃ r, w.mapping? i = some (r, n) ∧ r.isOwner

/-- The file of mapping `i` was released, and its name is that of another file now. -/
def Reclaimed (w : RingWorkspace) (i : Nat) : Prop :=
  ∃ r n path, w.mapping? i = some (r, n) ∧ r.isOwner ∧ r.isClosed ∧ r.path = some path ∧
    w.files.has path

/-- The step does to files what it may: a ring that is made has a file of its own, which goes with
the release or the drop of the mapping that made it, and with nothing else. -/
structure Faithful (w : RingWorkspace) (t : FileStep) : Prop where
  made : ∀ path g i, t = .create path g → (w.createFile path g).1 = .ok i →
    ∃ n, (w.fileStep t).files.get? path = some n ∧ (w.fileStep t).Owns i n
  stays : ∀ path n, w.files.get? path = some n → (∀ i, w.Owns i n → ¬ t.Parts i) →
    (w.fileStep t).files.get? path = some n
  goes : ∀ i n path, w.Owns i n → t.Parts i → (w.fileStep t).files.get? path ≠ some n

inductive Moves (w : RingWorkspace) : FileStep → RingWorkspace → Prop where
  /-- The file system refuses, or there is no such mapping. -/
  | idle {t : FileStep} {w' : RingWorkspace} (files : w'.files = w.files)
      (mappings : w'.mappings = w.mappings) (memories : w.memories.size ≤ w'.memories.size)
      (absent : ∀ i, t.Parts i → w.mapping? i = none) : Moves w t w'
  /-- A file is made, but no ring. -/
  | leave {path : String} {g : RingGeometry} {w' : RingWorkspace} (free : ¬ w.files.has path)
      (files : w'.files = w.files.put path w.memories.size) (mappings : w'.mappings = w.mappings)
      (memories : w'.memories.size = w.memories.size + 1) : Moves w (.create path g) w'
  | make {path : String} {g : RingGeometry} {w' : RingWorkspace} (free : ¬ w.files.has path)
      (files : w'.files = w.files.put path w.memories.size)
      (mappings : w'.mappings = w.mappings.push
        (some ({ geometry := g, path := some path }, w.memories.size)))
      (memories : w'.memories.size = w.memories.size + 1) : Moves w (.create path g) w'
  | join {path : String} {r : RingMapping} {n : Nat} {w' : RingWorkspace}
      (found : w.files.get? path = some n) (peer : r.isOwner = false)
      (files : w'.files = w.files) (mappings : w'.mappings = w.mappings.push (some (r, n)))
      (memories : w'.memories = w.memories) : Moves w (.openPeer path) w'
  | close {i : Nat} {r : RingMapping} {n : Nat} {w' : RingWorkspace}
      (found : w.mapping? i = some (r, n))
      (files : w'.files = if r.isClosed then w.files else w.files.remove r.ownFile?)
      (mappings : w'.mappings =
        w.mappings.setIfInBounds i (some ({ r with isClosed := true }, n)))
      (memories : w'.memories.size = w.memories.size) : Moves w (.release i) w'
  | part {i : Nat} {r : RingMapping} {n : Nat} {w' : RingWorkspace}
      (found : w.mapping? i = some (r, n)) (files : w'.files = w.files.remove r.ownFile?)
      (mappings : w'.mappings = w.mappings.setIfInBounds i none)
      (memories : w'.memories = w.memories) : Moves w (.drop i) w'

variable {w w' : RingWorkspace} {t : FileStep} {i j n : Nat} {path : String} {r : RingMapping}

theorem not_parts_create {g : RingGeometry} : ¬ (FileStep.create path g).Parts i := by
  rintro (h | h) <;> cases h

theorem not_parts_openPeer : ¬ (FileStep.openPeer path).Parts i := by
  rintro (h | h) <;> cases h

theorem moves_createFile (w : RingWorkspace) (path : String) (g : RingGeometry) :
    w.Moves (.create path g) (w.createFile path g).2 := by
  have hmade := g.makes_createFile w.host w.files path w.memories.size
  unfold RingWorkspace.createFile
  generalize g.createFile w.host w.files path w.memories.size = answer at hmade
  cases hmade with
  | refused e => exact .idle rfl rfl (by simp) fun i h => absurd h not_parts_create
  | stranded _ free => exact .leave free rfl rfl (Array.size_push _)
  | made free => exact .make free rfl rfl (Array.size_push _)

theorem moves_openFile (w : RingWorkspace) (path : String) :
    w.Moves (.openPeer path) (w.openFile path).2 := by
  have hidle : w.Moves (.openPeer path) w :=
    .idle rfl rfl (Nat.le_refl _) fun i h => absurd h not_parts_openPeer
  unfold RingWorkspace.openFile
  cases hfound : w.files.get? path with
  | none => exact hidle
  | some n =>
      dsimp only
      split
      · exact hidle
      · rename_i r hr
        refine .join hfound ?_ rfl rfl rfl
        unfold RingMapping.ofFile at hr
        split at hr
        · cases hr
        · split at hr
          · cases hr
          · dsimp only at hr
            split at hr
            · cases hr
            · split at hr
              · cases hr
              · cases hr
                rfl

theorem moves_release (w : RingWorkspace) (i : Nat) : w.Moves (.release i) (w.release i) := by
  unfold RingWorkspace.release
  cases hfound : w.mapping? i with
  | none =>
      refine .idle rfl rfl (Nat.le_refl _) fun j h => ?_
      rcases h with h | h <;> cases h
      exact hfound
  | some p =>
      obtain ⟨r, n⟩ := p
      unfold RingMapping.release
      dsimp only
      refine .close hfound rfl ?_ (Array.size_setIfInBounds ..)
      split
      · rename_i hclosed
        rw [← hclosed]
      · rfl

theorem moves_drop (w : RingWorkspace) (i : Nat) : w.Moves (.drop i) (w.drop i) := by
  unfold RingWorkspace.drop
  cases hfound : w.mapping? i with
  | none =>
      refine .idle rfl rfl (Nat.le_refl _) fun j h => ?_
      rcases h with h | h <;> cases h
      exact hfound
  | some p => exact .part hfound rfl rfl rfl

theorem moves_fileStep (w : RingWorkspace) (t : FileStep) : w.Moves t (w.fileStep t) := by
  cases t with
  | create path g => exact moves_createFile w path g
  | openPeer path => exact moves_openFile w path
  | release i => exact moves_release w i
  | drop i => exact moves_drop w i

theorem mapping?_push {x : Option (RingMapping × Nat)}
    (h : w'.mappings = w.mappings.push x) (j : Nat) :
    w'.mapping? j = if j = w.mappings.size then x else w.mapping? j := by
  unfold mapping?
  rw [h, Array.getElem?_push]
  split <;> rfl

theorem mapping?_set {x : Option (RingMapping × Nat)} {y : RingMapping × Nat}
    (h : w'.mappings = w.mappings.setIfInBounds i x) (hi : w.mapping? i = some y) (j : Nat) :
    w'.mapping? j = if i = j then x else w.mapping? j := by
  have hlt : i < w.mappings.size := by
    refine Nat.lt_of_not_le fun hge => ?_
    unfold mapping? at hi
    rw [Array.getElem?_eq_none hge] at hi
    cases hi
  unfold mapping?
  rw [h, Array.getElem?_setIfInBounds, if_pos hlt]
  split <;> rfl

theorem get?_remove (d : Directory) (own : Option String) (p : String) :
    (d.remove own).get? p = if own = some p then none else d.get? p := by
  cases own with
  | none => rfl
  | some path =>
      show (d.erase path).get? p = _
      rw [Table.get?_erase]
      simp

theorem ownFile?_eq_some : r.ownFile? = some path ↔ r.isOwner ∧ r.path = some path := by
  unfold RingMapping.ownFile?
  cases r.isOwner <;> simp

/-- Where a mapping was before the step. -/
inductive Origin (w : RingWorkspace) (t : FileStep) (w' : RingWorkspace) (j : Nat)
    (r' : RingMapping) (n : Nat) : Prop where
  | kept (r : RingMapping) (found : w.mapping? j = some (r, n)) (owner : r'.isOwner = r.isOwner)
      (path : r'.path = r.path) (closed : r'.isClosed → r.isClosed ∨ t.Parts j)
      (live : ¬ r'.isClosed → ¬ r.isClosed ∧ ¬ t.Parts j)
  | peer (path : String) (found : w.files.get? path = some n) (owner : r'.isOwner = false)
  | fresh (path : String) (g : RingGeometry) (step : t = .create path g)
      (new : r' = { geometry := g, path := some path }) (number : n = w.memories.size)
      (index : j = w.mappings.size) (file : w'.files.get? path = some n)

theorem Moves.origin {r' : RingMapping} (h : w.Moves t w') (hj : w'.mapping? j = some (r', n)) :
    w.Origin t w' j r' n := by
  have hsame : ∀ {t}, ¬ FileStep.Parts t j → w.mapping? j = some (r', n) →
      w.Origin t w' j r' n :=
    fun hparts hold => .kept r' hold rfl rfl Or.inl fun hlive => ⟨hlive, hparts⟩
  cases h with
  | idle files mappings _ absent =>
      have hold : w.mapping? j = some (r', n) := by
        unfold mapping? at hj ⊢
        rwa [← mappings]
      refine hsame (fun hparts => ?_) hold
      rw [absent j hparts] at hold
      cases hold
  | leave _ _ mappings _ =>
      refine hsame not_parts_create ?_
      unfold mapping? at hj ⊢
      rwa [← mappings]
  | @make path g _ _ files mappings _ =>
      rw [mapping?_push mappings] at hj
      split at hj
      · rename_i hindex
        cases hj
        refine .fresh path g rfl rfl rfl hindex ?_
        rw [files, Table.get?_put, if_pos (beq_self_eq_true path)]
      · exact hsame not_parts_create hj
  | @join path r _ _ found peer _ mappings _ =>
      rw [mapping?_push mappings] at hj
      split at hj
      · cases hj
        exact .peer path found peer
      · exact hsame not_parts_openPeer hj
  | @close i r _ _ found _ mappings _ =>
      rw [mapping?_set mappings found] at hj
      split at hj
      · rename_i hindex
        subst hindex
        cases hj
        exact .kept r found rfl rfl (fun _ => Or.inr (Or.inl rfl)) fun hlive => absurd rfl hlive
      · rename_i hindex
        refine hsame ?_ hj
        rintro (h | h) <;> cases h
        exact hindex rfl
  | @part i r _ _ found _ mappings _ =>
      rw [mapping?_set mappings found] at hj
      split at hj
      · cases hj
      · rename_i hindex
        refine hsame ?_ hj
        rintro (h | h) <;> cases h
        exact hindex rfl

theorem Moves.file {p : String} (h : w.Moves t w') (hp : w'.files.get? p = some n) :
    w.files.get? p = some n ∨
      n = w.memories.size ∧ n < w'.memories.size ∧ ∃ g, t = .create p g := by
  have hput : ∀ {path : String} {g : RingGeometry},
      w'.files = w.files.put path w.memories.size → w'.memories.size = w.memories.size + 1 →
      w.files.get? p = some n ∨
        n = w.memories.size ∧ n < w'.memories.size ∧
          ∃ g', FileStep.create path g = .create p g' := by
    intro path g hfiles hmemories
    rw [hfiles] at hp
    rcases Table.get?_put_cases hp with ⟨rfl, rfl⟩ | ⟨-, hold⟩
    · exact Or.inr ⟨rfl, by omega, g, rfl⟩
    · exact Or.inl hold
  have hremove : ∀ {own : Option String}, w'.files = w.files.remove own →
      w.files.get? p = some n := by
    intro own hfiles
    rw [hfiles] at hp
    cases own with
    | none => exact hp
    | some path => exact (Table.get?_of_get?_erase hp).2
  cases h with
  | idle files => exact Or.inl (files ▸ hp)
  | leave _ files _ memories => exact hput files memories
  | make _ files _ memories => exact hput files memories
  | join _ _ files => exact Or.inl (files ▸ hp)
  | @close _ r _ _ _ files =>
      by_cases hclosed : r.isClosed
      · rw [files, if_pos hclosed] at hp
        exact Or.inl hp
      · rw [if_neg hclosed] at files
        exact Or.inl (hremove files)
  | part _ files => exact Or.inl (hremove files)

theorem Moves.memories_le (h : w.Moves t w') : w.memories.size ≤ w'.memories.size := by
  cases h with
  | idle _ _ memories => exact memories
  | leave _ _ _ memories => exact memories ▸ Nat.le_succ _
  | make _ _ _ memories => exact memories ▸ Nat.le_succ _
  | join _ _ _ _ memories => exact Nat.le_of_eq (congrArg Array.size memories).symm
  | close _ _ _ memories => exact Nat.le_of_eq memories.symm
  | part _ _ _ memories => exact Nat.le_of_eq (congrArg Array.size memories).symm

/-- What holds at any time: numbers are given once, the file of a mapping is under its name if it
is anywhere, and after its release it is nowhere. -/
structure Numbered (w : RingWorkspace) : Prop where
  file : ∀ path n, w.files.get? path = some n → n < w.memories.size
  mapped : ∀ i r n, w.mapping? i = some (r, n) → n < w.memories.size
  unique : ∀ i j n, w.Owns i n → w.Owns j n → i = j
  named : ∀ i r n, w.mapping? i = some (r, n) → r.isOwner →
    ∃ path, r.path = some path ∧ ∀ p, w.files.get? p = some n → p = path
  gone : ∀ i r n path, w.mapping? i = some (r, n) → r.isOwner → r.isClosed →
    w.files.get? path ≠ some n

/-- With the release or the drop of the mapping that made it a file is gone. -/
theorem Numbered.goes (h : w.Numbered) (hmoves : w.Moves t w') (howns : w.Owns i n)
    (hparts : t.Parts i) (p : String) : w'.files.get? p ≠ some n := by
  obtain ⟨r, hr, howner⟩ := howns
  obtain ⟨path, hpath, hnamed⟩ := h.named i r n hr howner
  have hremove : w'.files = w.files.remove r.ownFile? → w'.files.get? p ≠ some n := by
    intro hfiles hp
    rw [hfiles, get?_remove, ownFile?_eq_some.mpr ⟨howner, hpath⟩] at hp
    split at hp
    · cases hp
    · rename_i hne
      exact hne (congrArg some (hnamed p hp).symm)
  cases hmoves with
  | idle _ _ _ absent =>
      rw [absent i hparts] at hr
      cases hr
  | leave => exact absurd hparts not_parts_create
  | make => exact absurd hparts not_parts_create
  | join => exact absurd hparts not_parts_openPeer
  | close found files =>
      rcases hparts with hi | hi <;> cases hi
      rw [found] at hr
      cases hr
      by_cases hclosed : r.isClosed
      · rw [files, if_pos hclosed]
        exact h.gone i r n p found howner hclosed
      · rw [if_neg hclosed] at files
        exact hremove files
  | part found files =>
      rcases hparts with hi | hi <;> cases hi
      rw [found] at hr
      cases hr
      exact hremove files

theorem Numbered.moves (h : w.Numbered) (hmoves : w.Moves t w') : w'.Numbered where
  file := by
    intro path n hp
    rcases hmoves.file hp with hold | ⟨-, hlt, -⟩
    · exact Nat.lt_of_lt_of_le (h.file path n hold) hmoves.memories_le
    · exact hlt
  mapped := by
    intro j r' n hj
    cases hmoves.origin hj with
    | kept r found => exact Nat.lt_of_lt_of_le (h.mapped j r n found) hmoves.memories_le
    | peer path found => exact Nat.lt_of_lt_of_le (h.file path n found) hmoves.memories_le
    | fresh path g _ _ _ _ file =>
        rcases hmoves.file file with hold | ⟨-, hlt, -⟩
        · exact Nat.lt_of_lt_of_le (h.file path n hold) hmoves.memories_le
        · exact hlt
  unique := by
    -- The mapping that made a file is as old as the file.
    have hold : ∀ j n, w'.Owns j n → w.Owns j n ∨ n = w.memories.size ∧ j = w.mappings.size := by
      rintro j n ⟨r', hj, howner⟩
      cases hmoves.origin hj with
      | kept r found owner => exact Or.inl ⟨r, found, owner ▸ howner⟩
      | peer _ _ owner => exact absurd howner (by simp [owner])
      | fresh _ _ _ _ number index => exact Or.inr ⟨number, index⟩
    have hlt : ∀ j n, w.Owns j n → n < w.memories.size :=
      fun j n howns => howns.elim fun r hr => h.mapped j r n hr.1
    intro i j n hi hj
    rcases hold i n hi with hi | ⟨hn, hi⟩ <;> rcases hold j n hj with hj | ⟨hn', hj⟩
    · exact h.unique i j n hi hj
    · exact absurd (hlt i n hi) (by omega)
    · exact absurd (hlt j n hj) (by omega)
    · rw [hi, hj]
  named := by
    intro j r' n hj howner
    cases hmoves.origin hj with
    | kept r found owner path =>
        obtain ⟨p, hp, hnamed⟩ := h.named j r n found (owner ▸ howner)
        refine ⟨p, path.trans hp, fun q hq => ?_⟩
        rcases hmoves.file hq with hold | ⟨hn, -⟩
        · exact hnamed q hold
        · exact absurd (h.mapped j r n found) (by omega)
    | peer _ _ owner => exact absurd howner (by simp [owner])
    | fresh path g step new number =>
        refine ⟨path, by rw [new], fun q hq => ?_⟩
        rcases hmoves.file hq with hold | ⟨-, -, g', hstep⟩
        · exact absurd (h.file q n hold) (by omega)
        · cases step.symm.trans hstep
          rfl
  gone := by
    intro j r' n p hj howner hclosed hp
    cases hmoves.origin hj with
    | kept r found owner _ closed =>
        rcases closed hclosed with hclosed | hparts
        · rcases hmoves.file hp with hold | ⟨hn, -⟩
          · exact h.gone j r n p found (owner ▸ howner) hclosed hold
          · exact absurd (h.mapped j r n found) (by omega)
        · exact h.goes hmoves ⟨r, found, owner ▸ howner⟩ hparts p hp
    | peer _ _ owner => exact absurd howner (by simp [owner])
    | fresh _ _ _ new =>
        rw [new] at hclosed
        cases hclosed

/-- The file of a mapping that made it and was not released is where it was made. -/
def InPlace (w : RingWorkspace) : Prop :=
  ∀ i r n path, w.mapping? i = some (r, n) → r.isOwner → ¬ r.isClosed → r.path = some path →
    w.files.get? path = some n

theorem InPlace.stays (h : w.InPlace) (hmoves : w.Moves t w')
    (hfree : ∀ i, t = .drop i → ¬ w.Reclaimed i) {path : String}
    (hfile : w.files.get? path = some n) (hparts : ∀ i, w.Owns i n → ¬ t.Parts i) :
    w'.files.get? path = some n := by
  have hhas : w.files.has path := (Table.has_iff _ _).mpr ⟨n, hfile⟩
  have hput : ∀ {p : String}, ¬ w.files.has p → w'.files = w.files.put p w.memories.size →
      w'.files.get? path = some n := by
    intro p hp hfiles
    have hne : ¬ p == path := by
      intro hsame
      rw [eq_of_beq hsame] at hp
      exact hp hhas
    rw [hfiles, Table.get?_put, if_neg hne]
    exact hfile
  have hremove : ∀ {r : RingMapping}, w'.files = w.files.remove r.ownFile? →
      ¬ (r.isOwner ∧ r.path = some path) → w'.files.get? path = some n := by
    intro r hfiles hother
    rw [hfiles, get?_remove, if_neg fun hown => hother (ownFile?_eq_some.mp hown)]
    exact hfile
  have hlive : ∀ {i : Nat} {r : RingMapping} {n' : Nat}, w.mapping? i = some (r, n') →
      t.Parts i → ¬ r.isClosed → ¬ (r.isOwner ∧ r.path = some path) := by
    rintro i r n' hr hi hopen ⟨howner, hpath⟩
    cases (h i r n' path hr howner hopen hpath).symm.trans hfile
    exact hparts i ⟨r, hr, howner⟩ hi
  cases hmoves with
  | idle files => rwa [files]
  | leave free files => exact hput free files
  | make free files => exact hput free files
  | join _ _ files => rwa [files]
  | @close i r _ _ found files =>
      by_cases hclosed : r.isClosed
      · rwa [files, if_pos hclosed]
      · rw [if_neg hclosed] at files
        exact hremove files (hlive found (Or.inl rfl) hclosed)
  | @part i r n' _ found files =>
      refine hremove files ?_
      by_cases hclosed : r.isClosed
      · rintro ⟨howner, hpath⟩
        exact hfree i rfl ⟨r, n', path, found, howner, hclosed, hpath, hhas⟩
      · exact hlive found (Or.inr rfl) hclosed

theorem InPlace.moves (h : w.InPlace) (hnumbered : w.Numbered) (hmoves : w.Moves t w')
    (hfree : ∀ i, t = .drop i → ¬ w.Reclaimed i) : w'.InPlace := by
  intro j r' n path hj howner hlive hpath
  cases hmoves.origin hj with
  | kept r found owner samePath _ live =>
      obtain ⟨hopen, hstays⟩ := live hlive
      refine h.stays hmoves hfree (h j r n path found (owner ▸ howner) hopen
        (samePath ▸ hpath)) fun i hi => ?_
      rw [hnumbered.unique i j n hi ⟨r, found, owner ▸ howner⟩]
      exact hstays
  | peer _ _ owner => exact absurd howner (by simp [owner])
  | fresh p g _ new _ _ file =>
      rw [new] at hpath
      cases hpath
      exact file

theorem made_createFile {g : RingGeometry} (h : (w.createFile path g).1 = .ok i) :
    ∃ n, (w.createFile path g).2.files.get? path = some n ∧ (w.createFile path g).2.Owns i n := by
  have hmade := g.makes_createFile w.host w.files path w.memories.size
  unfold RingWorkspace.createFile at h ⊢
  generalize g.createFile w.host w.files path w.memories.size = answer at hmade h ⊢
  cases hmade with
  | refused e => cases h
  | stranded => cases h
  | made =>
      cases h
      refine ⟨w.memories.size, ?_, { geometry := g, path := some path }, ?_, rfl⟩
      · show (w.files.put path w.memories.size).get? path = _
        rw [Table.get?_put, if_pos (beq_self_eq_true path)]
      · rw [mapping?_push (w := w) rfl]
        exact if_pos rfl

theorem InPlace.faithful (h : w.InPlace) (hnumbered : w.Numbered)
    (hfree : ∀ i, t = .drop i → ¬ w.Reclaimed i) : w.Faithful t where
  made := by
    rintro path g i rfl hmade
    exact made_createFile hmade
  stays := fun path n hfile hparts =>
    h.stays (w.moves_fileStep t) hfree hfile hparts
  goes := fun i n path howns hparts => hnumbered.goes (w.moves_fileStep t) howns hparts path

theorem Numbered.not_faithful (h : w.Numbered) (hi : w.Reclaimed i) : ¬ w.Faithful (.drop i) := by
  obtain ⟨r, n, path, hr, howner, hclosed, hpath, hhas⟩ := hi
  obtain ⟨n', hfile⟩ := (Table.has_iff _ _).mp hhas
  intro hfaithful
  have hstays := hfaithful.stays path n' hfile fun j hj hparts => by
    rcases hparts with hj' | hj' <;> cases hj'
    obtain ⟨r', hr', -⟩ := hj
    cases hr.symm.trans hr'
    exact h.gone i r n path hr howner hclosed hfile
  have hremoved : (w.fileStep (.drop i)).files = w.files.remove (some path) := by
    show (w.drop i).files = _
    rw [RingWorkspace.drop, hr, ← ownFile?_eq_some.mpr ⟨howner, hpath⟩]
  rw [hremoved, get?_remove, if_pos rfl] at hstays
  cases hstays

theorem foldl_putFile (contents : List (String × List UInt8)) (hmappings : w.mappings = #[])
    (hfile : ∀ path n, w.files.get? path = some n → n < w.memories.size) :
    let w' := contents.foldl (fun w c => w.putFile c.1 c.2) w
    w'.mappings = #[] ∧ ∀ path n, w'.files.get? path = some n → n < w'.memories.size := by
  induction contents generalizing w with
  | nil => exact ⟨hmappings, hfile⟩
  | cons c contents ih =>
      refine ih (w := w.putFile c.1 c.2) hmappings fun path n hp => ?_
      have hsize : (w.putFile c.1 c.2).memories.size = w.memories.size + 1 := Array.size_push _
      rw [hsize]
      rcases Table.get?_put_cases hp with ⟨-, rfl⟩ | ⟨-, hold⟩
      · exact Nat.lt_succ_self _
      · exact Nat.lt_succ_of_lt (hfile path n hold)

theorem numbered_ofFiles (host : Host) (contents : List (String × List UInt8)) :
    (ofFiles host contents).Numbered ∧ (ofFiles host contents).InPlace := by
  obtain ⟨hmappings, hfile⟩ :=
    foldl_putFile (w := { host := host }) contents rfl fun path n h => by cases h
  have hno : ∀ {i p}, (ofFiles host contents).mapping? i ≠ some p := by
    intro i p h
    unfold mapping? ofFiles at h
    rw [hmappings] at h
    cases h
  exact ⟨{
    file := hfile
    mapped := fun i r n h => absurd h hno
    unique := fun i j n hi _ => hi.elim fun r hr => absurd hr.1 hno
    named := fun i r n h => absurd h hno
    gone := fun i r n path h => absurd h hno }, fun i r n path h => absurd h hno⟩

theorem Numbered.run (h : w.Numbered) (steps : List FileStep) : (w.fileRun steps).Numbered := by
  induction steps generalizing w with
  | nil => exact h
  | cons t steps ih => exact ih (h.moves (w.moves_fileStep t))

theorem InPlace.run (h : w.InPlace) (hnumbered : w.Numbered) {early late : List FileStep}
    {t : FileStep}
    (hfree : ∀ before i after, early ++ t :: late = before ++ .drop i :: after →
      ¬ (w.fileRun before).Reclaimed i) : (w.fileRun early).Faithful t := by
  induction early generalizing w with
  | nil =>
      refine h.faithful hnumbered fun i hi => ?_
      subst hi
      exact hfree [] i late rfl
  | cons s early ih =>
      have hmoves := w.moves_fileStep s
      have hnext : (w.fileStep s).InPlace := by
        refine h.moves hnumbered hmoves fun i hi => ?_
        subst hi
        exact hfree [] i (early ++ t :: late) rfl
      exact ih hnext (hnumbered.moves hmoves) fun before i after hsteps =>
        hfree (s :: before) i after (congrArg (s :: ·) hsteps)

end RingWorkspace

/-- Every step of a run does to the files what it may, exactly if no mapping is dropped whose file
was released before and whose name is that of another file by then. -/
theorem files_kept_iff_no_name_reclaimed (host : Host) (contents : List (String × List UInt8))
    (steps : List FileStep) :
    (∀ early t late, steps = early ++ t :: late →
      ((RingWorkspace.ofFiles host contents).fileRun early).Faithful t) ↔
    ∀ early i late, steps = early ++ .drop i :: late →
      ¬ ((RingWorkspace.ofFiles host contents).fileRun early).Reclaimed i := by
  obtain ⟨hnumbered, hplace⟩ := RingWorkspace.numbered_ofFiles host contents
  constructor
  · intro hfaithful early i late hsteps hi
    exact (hnumbered.run early).not_faithful hi (hfaithful early (.drop i) late hsteps)
  · rintro hfree early t late rfl
    exact hplace.run hnumbered hfree

/-- A ring is released, another is made under its name, and then the first one is dropped. -/
theorem second_ring_loses_its_file :
    let w := (RingWorkspace.ofFiles {} []).fileRun
      [.create "/ring" ⟨1, 1⟩, .release 0, .create "/ring" ⟨1, 1⟩]
    w.Owns 1 1 ∧ w.files.get? "/ring" = some 1 ∧ (w.fileStep (.drop 0)).Owns 1 1 ∧
      (w.fileStep (.drop 0)).files.get? "/ring" = none ∧ ¬ w.Faithful (.drop 0) := by
  intro w
  let first : RingMapping := { geometry := ⟨1, 1⟩, path := some "/ring", isClosed := true }
  let second : RingMapping := { geometry := ⟨1, 1⟩, path := some "/ring" }
  have hfirst : w.mapping? 0 = some (first, 0) := by decide +kernel
  have hsecond : w.mapping? 1 = some (second, 1) := by decide +kernel
  have hkept : (w.fileStep (.drop 0)).mapping? 1 = some (second, 1) := by decide +kernel
  have hreclaimed : w.Reclaimed 0 :=
    ⟨first, 0, "/ring", hfirst, rfl, rfl, rfl, by decide +kernel⟩
  refine ⟨⟨second, hsecond, rfl⟩, by decide +kernel, ⟨second, hkept, rfl⟩, by decide +kernel, ?_⟩
  exact ((RingWorkspace.numbered_ofFiles {} []).1.run _).not_faithful hreclaimed

end Patchbay
