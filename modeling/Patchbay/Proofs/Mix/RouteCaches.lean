import Mathlib.Data.List.Basic
import Patchbay.Mix.RouteCache
import Patchbay.Proofs.Session.Counters

/-!
# Route caches agree with their registry

A cache looks at two counters in place of all sessions. As they leave out nothing that matters to
it, a cache that was just brought up to date answers what a search through the listed sessions
would, however long it was left alone before and whatever it found to do.
-/
namespace Patchbay

/-- A registry and a cache of it. -/
structure RouteWatch where
  cache : RouteCache
  registry : Registry

inductive RouteWatchStep where
  | sessions (t : RegistryStep)
  /-- The cache is brought up to date. -/
  | refresh

namespace RouteWatch

def step (w : RouteWatch) : RouteWatchStep → RouteWatch
  | .sessions t => { w with registry := w.registry.step t }
  | .refresh => { w with cache := (w.cache.refresh w.registry).2 }

def run (w : RouteWatch) (steps : List RouteWatchStep) : RouteWatch :=
  steps.foldl step w

end RouteWatch

namespace RouteCache

/-- What the cache holds was right when its counters were read. -/
structure Follows (c : RouteCache) (r : Registry) : Prop where
  list : ∀ g, c.generation = some g → g ≤ r.generation ∧
    (g = r.generation → c.entries.map (·.session) = (r.all.filter c.suits).map (·.id))
  routes : ∀ e ∈ c.entries, ∃ s, r.any? e.session = some s ∧
    ∀ n, e.epoch = some n → n ≤ s.epoch ∧
      (n = s.epoch → e.isRouted = s.device.sameEndpoint c.device)

/-- The route of a session as a new entry shows it. -/
def look (c : RouteCache) (s : Session) : CachedRoute where
  session := s.id
  epoch := some s.epoch
  isRouted := s.device.sameEndpoint c.device

variable {c : RouteCache} {r r' : Registry} {e : CachedRoute} {s : Session}

theorem follows_new (device : Device) (role : DeviceRole) (info : StreamFormat) (r : Registry) :
    Follows { device := device, role := role, info := info } r where
  list := fun g hg => by cases hg
  routes := fun e he => absurd he List.not_mem_nil

/-- Whether a session suits the cache is settled when the session is made. -/
theorem suits_eq {s' : Session} (h : s'.config = s.config) : c.suits s' = c.suits s := by
  unfold suits Session.intent
  rw [h]

/-- As long as the counters show what happens to the sessions the cache stays right. -/
theorem Follows.marks (h : c.Follows r) (hr : r.Ascending) (hr' : r'.Ascending)
    (hmarks : r.Marks r') : c.Follows r' where
  list := by
    intro g hg
    obtain ⟨hle, hlist⟩ := h.list g hg
    refine ⟨Nat.le_trans hle hmarks.generation, fun hsame => ?_⟩
    have hstays : r'.generation = r.generation := Nat.le_antisymm (hsame ▸ hle) hmarks.generation
    rw [hlist (hsame.trans hstays), hr.ids_filter_all, hr'.ids_filter_all, hmarks.listed hstays]
    refine List.filter_congr fun id hid => ?_
    obtain ⟨s, hs⟩ := hr.known id hid
    obtain ⟨s', hs', hlater⟩ := hmarks.sessions id s hs
    rw [hs, hs', Option.any_some, Option.any_some, suits_eq hlater.config]
  routes := by
    intro e he
    obtain ⟨s, hs, hroute⟩ := h.routes e he
    obtain ⟨s', hs', hlater⟩ := hmarks.sessions _ s hs
    refine ⟨s', hs', fun n hn => ?_⟩
    obtain ⟨hle, hrouted⟩ := hroute n hn
    refine ⟨Nat.le_trans hle hlater.epoch, fun hsame => ?_⟩
    have hstays : s'.epoch = s.epoch := Nat.le_antisymm (hsame ▸ hle) hlater.epoch
    rw [hrouted (hsame.trans hstays), hlater.device hstays]

/-- An entry that is right or has never been looked up is looked up as if it were new. -/
theorem relook_eq (hr : r.Numbered) (hs : r.any? e.session = some s)
    (he : ∀ n, e.epoch = some n → n = s.epoch → e.isRouted = s.device.sameEndpoint c.device) :
    c.relook r e = c.look s := by
  have hid : s.id = e.session := (hr _ s hs).1
  unfold relook look
  rw [hs]
  dsimp only
  by_cases hepoch : e.epoch = some s.epoch
  · rw [if_pos hepoch, hid, ← he _ hepoch rfl, ← hepoch]
  · rw [if_neg hepoch, hid]

/-- Brought up to date, the cache has exactly the listed sessions that suit it. -/
theorem Follows.entries_refresh (h : c.Follows r) (hr : r.Ascending) :
    (c.refresh r).2.entries = (r.all.filter c.suits).map c.look := by
  unfold refresh
  dsimp only
  by_cases hgeneration : c.generation = some r.generation
  · -- The list is kept: its entries are looked up by the numbers that they have.
    rw [if_neg fun hstale => hstale hgeneration]
    have hlook : ∀ e ∈ c.entries,
        some (c.relook r e) = (r.any? e.session).map c.look := by
      intro e he
      obtain ⟨s, hs, hroute⟩ := h.routes e he
      rw [hs, relook_eq hr.numbered hs fun n hn => (hroute n hn).2]
      rfl
    refine List.map_injective_iff.mpr (fun _ _ => Option.some.inj) ?_
    calc (c.entries.map (c.relook r)).map some
        = (c.entries.map (·.session)).map fun id => (r.any? id).map c.look := by
          rw [List.map_map, List.map_map]
          exact List.map_congr_left hlook
      _ = ((r.all.filter c.suits).map (·.id)).map fun id => (r.any? id).map c.look := by
          rw [(h.list _ hgeneration).2 rfl]
      _ = ((r.all.filter c.suits).map c.look).map some := by
          rw [List.map_map, List.map_map]
          refine List.map_congr_left fun s hs => ?_
          have hany := hr.numbered.any?_of_mem_all ((List.mem_filter.mp hs).1)
          simp [hany]
  · rw [if_pos hgeneration, List.map_map]
    refine List.map_congr_left fun s hs => ?_
    have hany := hr.numbered.any?_of_mem_all ((List.mem_filter.mp hs).1)
    exact relook_eq hr.numbered hany fun n hn => by cases hn

theorem Follows.refresh (h : c.Follows r) (hr : r.Ascending) : (c.refresh r).2.Follows r := by
  have hentries := h.entries_refresh hr
  constructor
  · intro g hg
    have hg : some r.generation = some g := hg
    cases hg
    refine ⟨Nat.le_refl _, fun _ => ?_⟩
    rw [hentries, List.map_map]
    rfl
  · intro e he
    rw [hentries] at he
    obtain ⟨s, hs, hlook⟩ := List.mem_map.mp he
    refine ⟨s, ?_, fun n hn => ?_⟩
    · rw [← hlook]
      exact hr.numbered.any?_of_mem_all ((List.mem_filter.mp hs).1)
    · rw [← hlook] at hn ⊢
      cases hn
      exact ⟨Nat.le_refl _, fun _ => rfl⟩

/-- The entries that show a route lead back to the sessions that have it. -/
theorem found_routed {sessions : List Session} (h : ∀ s ∈ sessions, r.any? s.id = some s) :
    (((sessions.map c.look).filter (·.isRouted)).filterMap fun e => r.any? e.session) =
      sessions.filter fun s => s.device.sameEndpoint c.device := by
  induction sessions with
  | nil => rfl
  | cons s rest ih =>
      have hrest := ih fun t ht => h t (List.mem_cons_of_mem _ ht)
      have hs : r.any? (c.look s).session = some s := h s List.mem_cons_self
      have hrouted : (c.look s).isRouted = s.device.sameEndpoint c.device := rfl
      rw [List.map_cons, List.filter_cons, List.filter_cons, hrouted]
      cases s.device.sameEndpoint c.device with
      | true => rw [if_pos rfl, if_pos rfl, List.filterMap_cons, hs, hrest]
      | false => simpa using hrest

theorem Follows.running_refresh (h : c.Follows r) (hr : r.Ascending) :
    (c.refresh r).2.running r =
      r.all.filter fun s => c.suits s && s.device.sameEndpoint c.device && s.isRunning := by
  have hlisted : ∀ s ∈ r.all.filter c.suits, r.any? s.id = some s := fun s hs =>
    hr.numbered.any?_of_mem_all (List.mem_filter.mp hs).1
  unfold running
  rw [h.entries_refresh hr, found_routed hlisted, List.filter_filter, List.filter_filter]
  refine List.filter_congr fun s _ => ?_
  ac_rfl

end RouteCache

namespace RouteWatch

/-- What every step preserves. -/
structure InStep (w : RouteWatch) : Prop where
  registry : w.registry.Ascending
  cache : w.cache.Follows w.registry

variable {w : RouteWatch}

theorem InStep.step (h : w.InStep) (t : RouteWatchStep) : (w.step t).InStep := by
  cases t with
  | sessions t =>
      have hregistry := h.registry.step t
      have hmarks := Registry.step_marks h.registry.numbered t
      exact ⟨hregistry, h.cache.marks h.registry hregistry hmarks⟩
  | refresh => exact ⟨h.registry, h.cache.refresh h.registry⟩

theorem InStep.run (h : w.InStep) (steps : List RouteWatchStep) : (w.run steps).InStep := by
  induction steps generalizing w with
  | nil => exact h
  | cons t later ih => exact ih (h.step t)

theorem cache_run (w : RouteWatch) (steps : List RouteWatchStep) :
    (w.run steps).cache.device = w.cache.device ∧ (w.run steps).cache.role = w.cache.role ∧
      (w.run steps).cache.info = w.cache.info := by
  induction steps generalizing w with
  | nil => exact ⟨rfl, rfl, rfl⟩
  | cons t later ih =>
      have hstep : (w.step t).cache.device = w.cache.device ∧
          (w.step t).cache.role = w.cache.role ∧ (w.step t).cache.info = w.cache.info := by
        cases t <;> exact ⟨rfl, rfl, rfl⟩
      obtain ⟨hdevice, hrole, hinfo⟩ := ih (w.step t)
      exact ⟨hdevice.trans hstep.1, hrole.trans hstep.2.1, hinfo.trans hstep.2.2⟩

end RouteWatch

/-- A cache that was just brought up to date has, in the order of their numbers, exactly the
listed sessions of its role and format that are bound to its device and run, whatever happened to
the sessions and whenever the cache was brought up to date before. -/
theorem cache_runs_as_listed (host : Host) (home : Option Session.RingHome) (files : Directory)
    (device : Device) (role : DeviceRole) (info : StreamFormat) (steps : List RouteWatchStep) :
    let w := RouteWatch.run
      { cache := { device := device, role := role, info := info }
        registry := { host := host, home := home, files := files } } steps
    let running := (w.cache.refresh w.registry).2.running w.registry
    (running = w.registry.all.filter fun s =>
      s.intent.role = role && s.config.info = info && s.device.sameEndpoint device &&
        s.isRunning) ∧
      running.Pairwise fun s t => s.id < t.id := by
  intro w running
  have hstart : RouteWatch.InStep
      { cache := { device := device, role := role, info := info }
        registry := { host := host, home := home, files := files } } := by
    refine ⟨?_, RouteCache.follows_new device role info _⟩
    have hempty : Registry.Accounted { host := host, home := home, files := files } :=
      Registry.accounted_empty
    exact ⟨hempty.numbered, hempty.heard, hempty.known, List.Pairwise.nil⟩
  have hw : w.InStep := hstart.run steps
  have hrunning := hw.cache.running_refresh hw.registry
  refine ⟨hrunning.trans (List.filter_congr fun s _ => ?_), ?_⟩
  · obtain ⟨hdevice, hrole, hinfo⟩ := RouteWatch.cache_run
      { cache := { device := device, role := role, info := info }
        registry := { host := host, home := home, files := files } } steps
    rw [RouteCache.suits, hdevice, hrole, hinfo]
  · show List.Pairwise _ ((w.cache.refresh w.registry).2.running w.registry)
    rw [hrunning]
    exact hw.registry.all_ascending.filter _

end Patchbay
