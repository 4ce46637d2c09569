import Patchbay.Proofs.Station.Runs

/-!
# Reloads and restarts

A running station takes changed settings over by what sets them apart from the settings before.
Levels and parameters then stand as a station started with the newest settings has them, with
two exceptions. An entry that the newest settings leave out stays, and an entry under the empty
key is taken over at the start only. How loud a level is depends on the bounds as well, so of
volumes this is said as long as the bounds are those with which the level was set.
-/
namespace Patchbay

/-- How loud a class is at its level. -/
def VolumeSettings.volumeOf (v : VolumeSettings) (c : VolumeClass) : Single :=
  v.toVolume (v.levelFor c)

/-- The settings that gave a class its level, among the newest ones and those before, newest
first. -/
def Settings.levelSetter (c : VolumeClass) (newest : Settings) : List Settings → Settings
  | [] => newest
  | prev :: older =>
    if prev.volume.levelFor c = newest.volume.levelFor c then prev.levelSetter c older else newest

namespace Station

/-- Nobody sets a volume or a parameter of this machine; all else may change. -/
structure SameLevels (s s' : Station) : Prop where
  volumes : ∀ c, (s'.desk.classes.get? c).map (·.volume) = (s.desk.classes.get? c).map (·.volume)
  parameters : s'.parameters.values = s.parameters.values

/-- The station was started and took the newest settings over, and those before it, newest first.
Nobody else set a volume or a parameter. -/
inductive TookOver : Station → Settings → List Settings → Prop
  | started {s : Station} {known : List RouteRule} {now : UInt64} {home : Option Session.RingHome}
      {first : Settings} (h : ofSettings known now home first = .ok s) : TookOver s first []
  | reloaded {s : Station} {newest : Settings} {older : List Settings}
      (h : TookOver s newest older) (next : Settings) :
      TookOver (s.reload (.between newest next) next) next (newest :: older)
  | wentOn {s s' : Station} {newest : Settings} {older : List Settings}
      (h : TookOver s newest older) (hsame : s.SameLevels s') : TookOver s' newest older

/-- What settings that were taken over leave behind. -/
structure Reflects (s : Station) (newest : Settings) (older : List Settings) : Prop where
  volumes : ∀ c, (s.desk.classes.get? c).map (·.volume) =
    some ((newest.levelSetter c older).volume.volumeOf c)
  listed : ∀ k, k ≠ "" → s.parameters.values.get? k =
    (newest.parameters.get? k).or (older.findSome? (·.parameters.get? k))
  unnamed : s.parameters.values.get? "" = (older.getLastD newest).parameters.get? ""

end Station

namespace VolumeSettings

variable {v v' : VolumeSettings} {c : VolumeClass}

theorem volumeOf_congr (hmin : v.minLevel = v'.minLevel) (hmax : v.maxLevel = v'.maxLevel)
    (hlevel : v.levelFor c = v'.levelFor c) : v.volumeOf c = v'.volumeOf c := by
  simp only [volumeOf, toVolume, hmin, hmax, hlevel]

end VolumeSettings

theorem Settings.levelFor_levelSetter (c : VolumeClass) (newest : Settings)
    (older : List Settings) :
    (newest.levelSetter c older).volume.levelFor c = newest.volume.levelFor c := by
  induction older generalizing newest with
  | nil => rfl
  | cons prev older ih =>
      rw [levelSetter]
      split
      · rename_i hkept
        rw [ih, hkept]
      · rfl

namespace VolumeDesk

theorem volume_eq (d : VolumeDesk) (c : VolumeClass) :
    d.volume c = ((d.classes.get? c).map (·.volume)).getD Single.zero := by
  unfold volume entry
  cases d.classes.get? c <;> rfl

theorem get?_ofSettings (v : VolumeSettings) (c : VolumeClass) :
    (ofSettings v).classes.get? c = some { volume := v.volumeOf c } := by
  cases c <;> rfl

theorem volume_foldl_changed (old new : Settings) (cs : List VolumeClass)
    (t : Table VolumeClass ClassVolume) (c : VolumeClass) :
    let changed (c : VolumeClass) : Option (VolumeClass × UInt8) :=
      if old.volume.levelFor c = new.volume.levelFor c then none
      else some (c, new.volume.levelFor c)
    let set (t : Table VolumeClass ClassVolume) (change : VolumeClass × UInt8) :
        Table VolumeClass ClassVolume :=
      t.modify change.1 ({ · with volume := new.volume.toVolume change.2 })
    (((cs.filterMap changed).foldl set t).get? c).map (·.volume) =
      if c ∈ cs ∧ old.volume.levelFor c ≠ new.volume.levelFor c then
        (t.get? c).map fun _ => new.volume.volumeOf c
      else (t.get? c).map (·.volume) := by
  intro changed set
  induction cs generalizing t with
  | nil => simp
  | cons c' cs ih =>
      by_cases hsame : old.volume.levelFor c' = new.volume.levelFor c'
      · have hnone : changed c' = none := if_pos hsame
        rw [List.filterMap_cons_none hnone, ih]
        by_cases hc : c = c'
        · simp [hc, hsame]
        · simp [hc]
      · have hsome : changed c' = some (c', new.volume.levelFor c') := if_neg hsame
        rw [List.filterMap_cons_some hsome, List.foldl_cons, ih, Table.get?_modify]
        by_cases hc : c = c'
        · simp [hc, hsame, VolumeSettings.volumeOf, Function.comp_def]
        · simp [hc, Ne.symm hc]

end VolumeDesk

namespace Parameters

variable {p : Parameters} {k : String}

theorem get?_set (hk : k ≠ "") (p : Parameters) (key value : String) :
    (p.set key value).2.values.get? k = if key = k then some value else p.values.get? k := by
  unfold set
  by_cases hkey : key = ""
  · simp [hkey, hk.symm]
  · simp [hkey, Table.get?_put]

theorem get?_empty_set (p : Parameters) (key value : String) :
    (p.set key value).2.values.get? "" = p.values.get? "" := by
  unfold set
  by_cases hkey : key = ""
  · simp [hkey]
  · simp [hkey, Table.get?_put]

theorem get?_apply_of_not_mem {changes : List (String × String)} (hk : k ≠ "")
    (h : k ∉ changes.map (·.1)) (p : Parameters) :
    (p.apply changes).values.get? k = p.values.get? k := by
  induction changes generalizing p with
  | nil => rfl
  | cons e changes ih =>
      rw [List.map_cons, List.mem_cons, not_or] at h
      exact (ih h.2 _).trans ((get?_set hk p e.1 e.2).trans (if_neg (Ne.symm h.1)))

theorem get?_apply_of_mem {changes : List (String × String)} {v : String} (hk : k ≠ "")
    (hdistinct : (changes.map (·.1)).Nodup) (hmem : (k, v) ∈ changes) (p : Parameters) :
    (p.apply changes).values.get? k = some v := by
  induction changes generalizing p with
  | nil => cases hmem
  | cons e changes ih =>
      obtain ⟨hnot, hdistinct⟩ := List.nodup_cons.mp hdistinct
      rcases List.mem_cons.mp hmem with rfl | hmem
      · exact (get?_apply_of_not_mem hk hnot _).trans ((get?_set hk p k v).trans (if_pos rfl))
      · exact ih hdistinct hmem _

/-- Entries that are taken over replace those under their keys. -/
theorem get?_apply (changes : Table String String) (hk : k ≠ "") (p : Parameters) :
    (p.apply changes.toList).values.get? k = (changes.get? k).or (p.values.get? k) := by
  cases hfound : changes.get? k with
  | none =>
      exact get?_apply_of_not_mem hk (Table.get?_eq_none_iff.mp hfound) p
  | some v =>
      exact get?_apply_of_mem hk changes.distinct (Table.get?_eq_some_iff.mp hfound) p

theorem get?_empty_apply (changes : List (String × String)) (p : Parameters) :
    (p.apply changes).values.get? "" = p.values.get? "" := by
  induction changes generalizing p with
  | nil => rfl
  | cons e changes ih => exact (ih _).trans (get?_empty_set p e.1 e.2)

end Parameters

namespace Station

variable {s s' fresh : Station} {newest next settings : Settings} {older : List Settings}
variable {known : List RouteRule} {now : UInt64} {home : Option Session.RingHome}

theorem sameLevels_step (s : Station) (t : StationStep) : s.SameLevels (s.step t) := by
  cases t with
  | devices t => cases t <;> exact ⟨fun _ => rfl, rfl⟩
  | register id =>
      unfold step
      dsimp only
      split <;> exact ⟨fun _ => rfl, rfl⟩
  | change =>
      unfold step nextChange
      dsimp only
      split <;> exact ⟨fun _ => rfl, rfl⟩
  | event =>
      unfold step nextEvent
      dsimp only
      split <;> exact ⟨fun _ => rfl, rfl⟩
  | sessions t => exact ⟨fun _ => rfl, rfl⟩
  | unregister id => exact ⟨fun _ => rfl, rfl⟩

/-- The devices that are there from the start play no part in levels. -/
theorem levels_ofSettings (h : ofSettings known now home settings = .ok s) :
    s.desk = .ofSettings settings.volume ∧ s.parameters = { values := settings.parameters } := by
  let P (st : Station) : Prop :=
    st.desk = .ofSettings settings.volume ∧ st.parameters = { values := settings.parameters }
  exact ofSettings_induction (P := P) h (fun _ => ⟨rfl, rfl⟩) fun _ _ hst => hst

theorem reflects_ofSettings (h : ofSettings known now home settings = .ok s) :
    s.Reflects settings [] := by
  obtain ⟨hdesk, hparameters⟩ := levels_ofSettings h
  constructor
  · simp [hdesk, VolumeDesk.get?_ofSettings, Settings.levelSetter]
  · simp [hparameters]
  · simp [hparameters]

theorem Reflects.sameLevels (h : s.Reflects newest older) (hsame : s.SameLevels s') :
    s'.Reflects newest older where
  volumes c := (hsame.volumes c).trans (h.volumes c)
  listed := by
    rw [hsame.parameters]
    exact h.listed
  unnamed := by
    rw [hsame.parameters]
    exact h.unnamed

theorem parameters_reload (s : Station) (d : SettingsDiff) (new : Settings) :
    (s.reload d new).parameters = s.parameters.apply d.parameters := by
  unfold reload
  dsimp only
  split <;> rfl

/-- With no level to set, setting all levels changes nothing either. -/
theorem classes_reload (s : Station) (d : SettingsDiff) (new : Settings) :
    (s.reload d new).desk.classes = d.volume.foldl
      (fun t change => t.modify change.1 ({ · with volume := new.volume.toVolume change.2 }))
      s.desk.classes := by
  unfold reload
  by_cases hempty : d.volume.isEmpty
  · rw [if_pos hempty, List.isEmpty_iff.mp hempty]
    rfl
  · rw [if_neg hempty]
    rfl

/-- A class whose level changed is as loud as the new settings say, and the others as before. -/
theorem volume_reload (s : Station) (old new : Settings) (c : VolumeClass) :
    (((s.reload (.between old new) new).desk.classes.get? c).map (·.volume)) =
      if old.volume.levelFor c = new.volume.levelFor c then
        (s.desk.classes.get? c).map (·.volume)
      else (s.desk.classes.get? c).map fun _ => new.volume.volumeOf c := by
  have hall : c ∈ VolumeClass.all := by cases c <;> decide
  have hfold := VolumeDesk.volume_foldl_changed old new VolumeClass.all s.desk.classes c
  rw [classes_reload]
  simp only [hall, true_and, ne_eq, ite_not] at hfold
  exact hfold

theorem Reflects.reload (h : s.Reflects newest older) :
    (s.reload (.between newest next) next).Reflects next (newest :: older) where
  volumes c := by
    rw [volume_reload, Settings.levelSetter]
    by_cases hsame : newest.volume.levelFor c = next.volume.levelFor c
    · rw [if_pos hsame, if_pos hsame, h.volumes]
    · obtain ⟨e, he, -⟩ := Option.map_eq_some_iff.mp (h.volumes c)
      simp [hsame, he]
  listed k hk := by
    rw [parameters_reload, SettingsDiff.between, Parameters.get?_apply _ hk, Table.get?_filter,
      h.listed k hk, List.findSome?_cons]
    cases hnext : next.parameters.get? k with
    | none => cases newest.parameters.get? k <;> rfl
    | some v =>
        by_cases hsame : newest.parameters.get? k = some v
        · simp [hsame, Option.filter_some]
        · simp [hsame, Option.filter_some]
  unnamed := by
    rw [parameters_reload, Parameters.get?_empty_apply, h.unnamed]
    cases older <;> rfl

theorem TookOver.reflects (h : s.TookOver newest older) : s.Reflects newest older := by
  induction h with
  | started h => exact reflects_ofSettings h
  | reloaded h next ih => exact ih.reload
  | wentOn h hsame ih => exact ih.sameLevels hsame

end Station

/-- How loud a class is depends on the bounds in force when its level was set, so it is as loud as
after a restart exactly if these and the newest give the level the same volume. -/
theorem reload_as_loud_iff {s fresh : Station} {newest : Settings} {older : List Settings}
    {known : List RouteRule} {now : UInt64} {home : Option Session.RingHome}
    (hrun : s.TookOver newest older)
    (hfresh : Station.ofSettings known now home newest = .ok fresh) (c : VolumeClass) :
    s.desk.volume c = fresh.desk.volume c ↔
      (newest.levelSetter c older).volume.volumeOf c = newest.volume.volumeOf c := by
  rw [VolumeDesk.volume_eq, hrun.reflects.volumes c, VolumeDesk.volume_eq,
    (Station.levels_ofSettings hfresh).1, VolumeDesk.get?_ofSettings]
  rfl

/-- A station that took settings over stands as one that is started with the newest. A class is as
loud if the bounds are those under which it was given its level. Under a key with a name there is
what the started station has, and where it has nothing, what the latest of the older settings
with an entry says. Under the empty key there is what the first settings say. -/
theorem reload_stands_as_restart {s fresh : Station} {newest : Settings} {older : List Settings}
    {known : List RouteRule} {now : UInt64} {home : Option Session.RingHome}
    (hrun : s.TookOver newest older)
    (hfresh : Station.ofSettings known now home newest = .ok fresh) :
    (∀ c, (newest.levelSetter c older).volume.minLevel = newest.volume.minLevel →
      (newest.levelSetter c older).volume.maxLevel = newest.volume.maxLevel →
      s.desk.volume c = fresh.desk.volume c) ∧
    (∀ k, k ≠ "" → s.parameters.values.get? k =
      (fresh.parameters.values.get? k).or (older.findSome? (·.parameters.get? k))) ∧
    s.parameters.values.get? "" = (older.getLastD newest).parameters.get? "" := by
  have hs := hrun.reflects
  have hparameters := (Station.levels_ofSettings hfresh).2
  refine ⟨fun c hmin hmax => ?_, fun k hk => ?_, hs.unnamed⟩
  · have hlevel := Settings.levelFor_levelSetter c newest older
    exact (reload_as_loud_iff hrun hfresh c).mpr (VolumeSettings.volumeOf_congr hmin hmax hlevel)
  · rw [hs.listed k hk, hparameters]

/-- Music gets the highest level of wider bounds, and the mode is set after the start. -/
theorem louder_music_as_after_restart :
    let first : Settings := { parameters := .ofList [("mode", "film")] }
    let louder : VolumeSettings := { maxLevel := 30, levels := .ofList [("music", 30)] }
    let second : Settings :=
      { volume := louder, parameters := .ofList [("eq", "flat"), ("mode", "game")] }
    ∃ s fresh, Station.TookOver s second [first] ∧
      Station.ofSettings RouteRule.builtIn 9 none second = .ok fresh ∧
      s.desk.volume .music = fresh.desk.volume .music ∧
      s.parameters.values.get? "mode" = some "game" := by
  intro first louder second
  have hfirst : Station.ofSettings RouteRule.builtIn 0 none first = .ok _ := rfl
  have hstart := Station.TookOver.started hfirst
  let speaker : Device := { type := .speaker, role := .output }
  have hrun := (hstart.wentOn (Station.sameLevels_step _ (.devices (.connect 5 speaker)))).reloaded
    second
  have hfresh : Station.ofSettings RouteRule.builtIn 9 none second = .ok _ := rfl
  have hreload := reload_stands_as_restart hrun hfresh
  refine ⟨_, _, hrun, hfresh, hreload.1 .music ?_ ?_, (hreload.2.1 "mode" ?_).trans ?_⟩
  · rfl
  · rfl
  · decide
  · rfl

/-- Wider bounds change no volume, an entry that is left out stays, and one under the empty key is
passed over. -/
theorem reload_misses_what_restart_takes :
    ∃ (first second third : Settings) (s fresh : Station),
      (first.check, second.check, third.check) = (.ok (), .ok (), .ok ()) ∧
      s.TookOver third [second, first] ∧
      Station.ofSettings RouteRule.builtIn 0 none third = .ok fresh ∧
      s.desk.volume .music ≠ fresh.desk.volume .music ∧
      (s.parameters.values.get? "mode", fresh.parameters.values.get? "mode") =
        (some "game", none) ∧
      (s.parameters.values.get? "", fresh.parameters.values.get? "") = (none, some "x") := by
  have hfirst : Station.ofSettings RouteRule.builtIn 0 none {} = .ok _ := rfl
  have hstart := Station.TookOver.started hfirst
  refine ⟨{}, { volume := { maxLevel := 30 }, parameters := .ofList [("mode", "game")] },
    { volume := { maxLevel := 30 }, parameters := .ofList [("", "x")] }, _, _, rfl,
    (hstart.reloaded _).reloaded _, rfl, ?_, ?_, ?_⟩
  · decide
  · decide
  · decide

/-- New bounds for levels that stay the same change no volume. -/
theorem bounds_alone_change_nothing (s : Station) {old new : Settings}
    (h : ∀ c, old.volume.levelFor c = new.volume.levelFor c) (c : VolumeClass) :
    (s.reload (.between old new) new).desk.volume c = s.desk.volume c := by
  rw [VolumeDesk.volume_eq, Station.volume_reload, if_pos (h c), ← VolumeDesk.volume_eq]

end Patchbay
