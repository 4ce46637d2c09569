import Mathlib.Data.Nat.ModEq
import Patchbay.Proofs.Ring.Unread
import Patchbay.Proofs.Session.Shared

/-!
# Frames are conserved

A session whose ring nobody else uses, written and read in whole audio frames. Then every frame
that it took is counted once: it was read, it is still unread, or its owner had it dropped. The
counts of full rings and of short reads are those of the answers that its clients got, and no call
that only steers the session, the loss of its device included, touches the data.
-/
namespace Patchbay

/-- What happens to a session whose ring nobody else uses. -/
inductive OwnStep where
  | call (c : SessionCall)
  /-- From now on somebody listens to the events. -/
  | listen
  | control (controls : Controls)

/-- What the clients of a session know of its data from the answers. -/
structure Tally where
  /-- Frames that were dropped at their wish. -/
  discarded : Nat := 0
  /-- Writes that found the ring full. -/
  refused : Nat := 0
  /-- Reads that brought less than was asked for. -/
  short : Nat := 0

def Tally.add (a b : Tally) : Tally :=
  ⟨a.discarded + b.discarded, a.refused + b.refused, a.short + b.short⟩

namespace Session

/-- The bytes in the ring that can still be read. -/
def unread (s : Session) : List UInt8 :=
  s.ring.mapping.geometry.unread s.ring.memory

/-- What the answer of a call adds to the tally. -/
def tally (s : Session) (c : SessionCall) : Tally :=
  match c, (s.perform c).1 with
  | .flush, .ok _ | .pause true, .ok _ => { discarded := s.unread.length / s.bytesPerFrame }
  | .write _ _, .error .bufferFull => { refused := 1 }
  | .read want, .ok (.filled got) => { short := if got.bytesRead < want then 1 else 0 }
  | _, _ => {}

end Session

/-- A session and the tally of its clients. -/
structure Ledger where
  session : Session
  tally : Tally := {}

namespace Ledger

def step (l : Ledger) : OwnStep → Ledger
  | .call c => ⟨(l.session.perform c).2.1, l.tally.add (l.session.tally c)⟩
  | .listen => { l with session := { l.session with reports := true } }
  | .control controls => { l with session := { l.session with controls := controls } }

def run (l : Ledger) (steps : List OwnStep) : Ledger :=
  steps.foldl step l

/-- The counts of the session and of its clients agree on the whole frames that it took. -/
structure Balances (l : Ledger) : Prop where
  ring : l.session.ring.Carries l.session.unread
  whole : l.session.bytesPerFrame ∣ l.session.unread.length
  frames : l.session.position.framesWritten = l.session.position.framesRead +
    l.session.unread.length / l.session.bytesPerFrame + l.tally.discarded
  overruns : l.session.position.overruns = l.tally.refused
  underruns : l.session.position.underruns = l.tally.short

end Ledger

/-- Data goes in and out in whole audio frames. -/
def OwnStep.IsWhole (frameBytes : Nat) : OwnStep → Prop
  | .call (.write frame _) => frameBytes ∣ frame.length
  | .call (.read want) => frameBytes ∣ want
  | _ => True

/-- The call steers the session and neither moves nor drops data. -/
def SessionCall.steers : SessionCall → Bool
  | .resolve | .start | .pause false | .resume | .stop | .bind _ => true
  | _ => false

/-- What a call does to the data of a session that has `bytes` unread, with what its answer adds
to the tally. -/
inductive Session.Effect (s : Session) (bytes : List UInt8) :
    SessionCall → Session → Tally → Prop where
  | kept {c s'} : s'.ring.Carries bytes → s'.position = s.position → s.Effect bytes c s' {}
  | dropped {c s'} : s'.ring.Carries [] → s'.position = s.position →
      s.Effect bytes c s' { discarded := bytes.length / s.bytesPerFrame }
  | written {frame t s'} : s'.ring.Carries (bytes ++ frame) →
      s'.position = { s.position with
        framesWritten := s.position.framesWritten + frame.length / s.bytesPerFrame } →
      s.Effect bytes (.write frame t) s' {}
  | refused {frame t s'} : s'.ring.Carries bytes →
      s'.position = { s.position with overruns := s.position.overruns + 1 } →
      s.Effect bytes (.write frame t) s' { refused := 1 }
  | read {want s'} (n : Nat) (short : Nat) : n = want ∨ n = 0 → s'.ring.Carries (bytes.drop n) →
      s'.position = { s.position with
        framesRead := s.position.framesRead + (bytes.take n).length / s.bytesPerFrame
        underruns := s.position.underruns + short } →
      s.Effect bytes (.read want) s' { short := short }

namespace Session

variable {s : Session} {c : SessionCall} {bytes : List UInt8}

theorem steers_perform (s : Session) (hc : c.steers) :
    (s.perform c).2.1.ring = s.ring ∧ (s.perform c).2.1.position = s.position := by
  cases c with
  | resolve =>
      show s.resolve.2.ring = s.ring ∧ s.resolve.2.position = s.position
      unfold resolve
      split
      · exact ⟨rfl, rfl⟩
      · split <;> exact ⟨rfl, rfl⟩
  | start =>
      show s.start.2.ring = s.ring ∧ s.start.2.position = s.position
      unfold start
      split
      · split <;> exact ⟨rfl, rfl⟩
      · split <;> exact ⟨rfl, rfl⟩
      · exact ⟨rfl, rfl⟩
  | pause discard =>
      cases discard with
      | true => cases hc
      | false =>
          show (s.pause false).2.ring = s.ring ∧ (s.pause false).2.position = s.position
          unfold pause
          split <;> exact ⟨rfl, rfl⟩
  | resume =>
      show s.resume.2.ring = s.ring ∧ s.resume.2.position = s.position
      unfold resume
      split
      · split <;> exact ⟨rfl, rfl⟩
      · exact ⟨rfl, rfl⟩
  | stop =>
      show s.stop.2.ring = s.ring ∧ s.stop.2.position = s.position
      unfold stop
      dsimp only
      split
      · exact ⟨rfl, rfl⟩
      · exact ⟨rfl, rfl⟩
      · split <;> exact ⟨rfl, rfl⟩
      · exact ⟨rfl, rfl⟩
  | bind d =>
      show (s.bind d).2.ring = s.ring ∧ (s.bind d).2.position = s.position
      unfold bind
      split
      · exact ⟨rfl, rfl⟩
      · dsimp only
        split
        · split <;> exact ⟨rfl, rfl⟩
        · split <;> exact ⟨rfl, rfl⟩
  | _ => cases hc

theorem tally_steers (s : Session) (hc : c.steers) : s.tally c = {} := by
  cases c with
  | pause discard =>
      cases discard with
      | true => cases hc
      | false => rfl
  | resolve => rfl
  | start => rfl
  | resume => rfl
  | stop => rfl
  | bind d => rfl
  | _ => cases hc

/-- The outcome of a call that drops all unread data unless it is refused. -/
def Drops (s : Session) (bytes : List UInt8) (out : Except StreamError Unit × Session) : Prop :=
  out.2.position = s.position ∧
    ((out.1 = .ok () ∧ out.2.ring.Carries []) ∨ ∃ e, out.1 = .error e ∧ out.2.ring.Carries bytes)

theorem drops_flushRing (h : s.ring.Carries bytes) : s.Drops bytes s.flushRing := by
  unfold flushRing
  rcases h.flush with ⟨ring, hflush, hempty⟩ | ⟨e, ring, hflush, hkept⟩
  · rw [hflush]
    exact ⟨rfl, Or.inl ⟨rfl, hempty⟩⟩
  · rw [hflush]
    cases e <;> exact ⟨rfl, Or.inr ⟨_, rfl, hkept⟩⟩

theorem drops_flush (h : s.ring.Carries bytes) : s.Drops bytes s.flush := by
  unfold flush
  split
  · exact drops_flushRing h
  · exact drops_flushRing h
  · exact ⟨rfl, Or.inr ⟨_, rfl, h⟩⟩

theorem drops_pause (h : s.ring.Carries bytes) : s.Drops bytes (s.pause true) := by
  unfold pause
  split
  · have hflush : Drops { s with state := .paused } bytes (flushRing { s with state := .paused }) :=
      drops_flushRing h
    rw [if_pos rfl]
    generalize flushRing { s with state := .paused } = out at hflush
    obtain ⟨a, s'⟩ := out
    obtain ⟨hposition, ⟨rfl, hempty⟩ | ⟨e, rfl, hkept⟩⟩ := hflush
    · exact ⟨hposition, Or.inl ⟨rfl, hempty⟩⟩
    · exact ⟨hposition, Or.inr ⟨e, rfl, hkept⟩⟩
  · exact ⟨rfl, Or.inr ⟨_, rfl, h⟩⟩

/-- The tally counts what is dropped if the call is not refused. -/
theorem Drops.effect {out : Except StreamError Unit × Session} (h : s.Drops s.unread out)
    (hc : c = .flush ∨ c = .pause true) (hperform : s.perform c = going (fun _ => .done) out) :
    s.Effect s.unread c (s.perform c).2.1 (s.tally c) := by
  obtain ⟨a, s'⟩ := out
  obtain ⟨hposition, ⟨rfl, hempty⟩ | ⟨e, rfl, hkept⟩⟩ := h
  · have htally : s.tally c = { discarded := s.unread.length / s.bytesPerFrame } := by
      rcases hc with rfl | rfl <;> simp only [tally, hperform, going, Except.map]
    rw [hperform, htally]
    exact .dropped hempty hposition
  · have htally : s.tally c = {} := by
      rcases hc with rfl | rfl <;> simp only [tally, hperform, going, Except.map]
    rw [hperform, htally]
    exact .kept hkept hposition

theorem tally_write (s : Session) (frame : List UInt8) (t : UInt64) :
    s.tally (.write frame t) =
      match (s.write frame t).1 with
      | .error .bufferFull => { refused := 1 }
      | _ => {} := by
  simp only [tally, perform, going]
  cases (s.write frame t).1 with
  | ok _ => rfl
  | error e => cases e <;> rfl

theorem tally_read (s : Session) (want : Nat) :
    s.tally (.read want) =
      match (s.read want).1 with
      | .ok got => { short := if got.bytesRead < want then 1 else 0 }
      | .error _ => {} := by
  simp only [tally, perform, going]
  cases (s.read want).1 <;> rfl

theorem effect_write (h : s.ring.Carries s.unread) (frame : List UInt8) (t : UInt64) :
    s.Effect s.unread (.write frame t) (s.write frame t).2 (s.tally (.write frame t)) := by
  have hstay : ∀ e s', s.write frame t = (.error e, s') → e ≠ .bufferFull →
      s'.ring.Carries s.unread → s'.position = s.position →
      s.Effect s.unread (.write frame t) (s.write frame t).2 (s.tally (.write frame t)) := by
    intro e s' hwrite hother hring hposition
    have htally : s.tally (.write frame t) = {} := by
      rw [tally_write, hwrite]
      cases e <;> first | rfl | exact absurd rfl hother
    rw [hwrite, htally]
    exact .kept hring hposition
  by_cases hend : s.isTerminal
  · refine hstay (s.illegal "write") s ?_ (fun hfull => ?_) h rfl
    · rw [write, if_pos hend]
    · cases hfull
  rcases h.write frame t with ⟨ring, hwrite, hadded⟩ | ⟨e, ring, hwrite, hkept⟩
  · have hout : s.write frame t = (.ok (), { s with
        ring := ring
        position := { s.position with
          framesWritten := s.position.framesWritten + frame.length / s.bytesPerFrame } }) := by
      rw [write, if_neg hend, hwrite]
    have htally : s.tally (.write frame t) = {} := by
      rw [tally_write, hout]
    rw [hout, htally]
    exact .written hadded rfl
  · by_cases hfull : e = .bufferFull
    · subst hfull
      have hout : s.write frame t = (.error .bufferFull, { s with
          ring := ring
          position := { s.position with overruns := s.position.overruns + 1 } }) := by
        rw [write, if_neg hend, hwrite]
      have htally : s.tally (.write frame t) = { refused := 1 } := by
        rw [tally_write, hout]
      rw [hout, htally]
      exact .refused hkept rfl
    · refine hstay e { s with ring := ring } ?_ hfull hkept rfl
      rw [write, if_neg hend, hwrite]
      cases e <;> first | rfl | exact absurd rfl hfull

theorem effect_read (h : s.ring.Carries s.unread) (want : Nat) :
    s.Effect s.unread (.read want) (s.read want).2 (s.tally (.read want)) := by
  have hstay : ∀ e s', s.read want = (.error e, s') → s'.ring.Carries s.unread →
      s'.position = s.position →
      s.Effect s.unread (.read want) (s.read want).2 (s.tally (.read want)) := by
    intro e s' hread hring hposition
    have htally : s.tally (.read want) = {} := by
      rw [tally_read, hread]
    rw [hread, htally]
    exact .kept hring hposition
  by_cases hend : s.isTerminal
  · exact hstay (s.illegal "read") s (by rw [read, if_pos hend]) h rfl
  rcases h.readInto want with
    ⟨got, ring, n, hread, hn, -, hlength, hunderrun, htaken⟩ | ⟨e, ring, hread, hkept⟩
  · have hout : s.read want = (.ok got, { s with
        ring := ring
        position := { s.position with
          framesRead := s.position.framesRead + (s.unread.take n).length / s.bytesPerFrame
          underruns := s.position.underruns + if got.bytesRead < want then 1 else 0 }
        lastTimestamp := got.timestamp.getD s.lastTimestamp }) := by
      rw [read, if_neg hend, hread, ← hlength]
      simp only [hunderrun]
    have htally : s.tally (.read want) =
        { short := if got.bytesRead < want then 1 else 0 } := by
      rw [tally_read, hout]
    rw [hout, htally]
    exact .read n _ (hn.imp_right And.left) htaken rfl
  · refine hstay e { s with ring := ring } ?_ hkept rfl
    rw [read, if_neg hend, hread]

theorem effect_perform (h : s.ring.Carries s.unread) (c : SessionCall) :
    s.Effect s.unread c (s.perform c).2.1 (s.tally c) := by
  by_cases hsteers : c.steers
  · obtain ⟨hring, hposition⟩ := s.steers_perform hsteers
    rw [s.tally_steers hsteers]
    exact .kept (by rw [hring]; exact h) hposition
  cases c with
  | pause discard =>
      cases discard with
      | true => exact (drops_pause h).effect (Or.inr rfl) rfl
      | false => exact absurd rfl hsteers
  | flush => exact (drops_flush h).effect (Or.inl rfl) rfl
  | release =>
      refine .kept ?_ ?_
      · show s.release.2.1.ring.Carries s.unread
        unfold release
        split
        · exact h
        · exact h.release
      · show s.release.2.1.position = s.position
        unfold release
        split <;> rfl
  | invalidate reason =>
      refine .kept ?_ ?_
      · show (s.invalidate reason).1.ring.Carries s.unread
        unfold invalidate
        split
        · exact h
        · exact h.release
      · show (s.invalidate reason).1.position = s.position
        unfold invalidate
        split <;> rfl
  | write frame t => exact effect_write h frame t
  | read want => exact effect_read h want
  | info => exact .kept h rfl
  | _ => exact absurd rfl hsteers

theorem bytesPerFrame_perform (s : Session) (c : SessionCall) :
    (s.perform c).2.1.bytesPerFrame = s.bytesPerFrame := by
  rw [bytesPerFrame, (s.marks_perform c).config, bytesPerFrame]

end Session

namespace Ledger

variable {l : Ledger}

theorem balances_of_carries {s : Session} {seen : Tally} {bytes : List UInt8} {k : Nat}
    {p : Position} (hring : s.ring.Carries bytes) (hk : s.bytesPerFrame = k) (hp : s.position = p)
    (hwhole : k ∣ bytes.length)
    (hframes : p.framesWritten = p.framesRead + bytes.length / k + seen.discarded)
    (hoverruns : p.overruns = seen.refused) (hunderruns : p.underruns = seen.short) :
    Balances ⟨s, seen⟩ := by
  have hunread : s.unread = bytes := hring.2
  subst hk hp
  rw [← hunread] at hwhole hframes
  exact ⟨⟨hring.1, rfl⟩, hwhole, hframes, hoverruns, hunderruns⟩

theorem Balances.step (h : l.Balances) {t : OwnStep} (ht : t.IsWhole l.session.bytesPerFrame) :
    (l.step t).Balances := by
  cases t with
  | listen => exact ⟨h.ring, h.whole, h.frames, h.overruns, h.underruns⟩
  | control controls => exact ⟨h.ring, h.whole, h.frames, h.overruns, h.underruns⟩
  | call c =>
      have hconfig := l.session.bytesPerFrame_perform c
      have heffect := Session.effect_perform h.ring c
      obtain ⟨-, hwhole, hframes, hoverruns, hunderruns⟩ := h
      have hstep : l.step (.call c) =
          ⟨(l.session.perform c).2.1, l.tally.add (l.session.tally c)⟩ := rfl
      rw [hstep]
      generalize (l.session.perform c).2.1 = s' at hconfig heffect ⊢
      generalize l.session.tally c = seen at heffect ⊢
      cases heffect with
      | kept hring hposition =>
          exact balances_of_carries hring hconfig hposition hwhole hframes hoverruns hunderruns
      | dropped hring hposition =>
          refine balances_of_carries hring hconfig hposition (Nat.dvd_zero _) ?_ hoverruns
            hunderruns
          rw [List.length_nil, Nat.zero_div, hframes, Nat.add_zero]
          exact (Nat.add_right_comm ..).trans (Nat.add_assoc ..)
      | written hring hposition =>
          have hframe : l.session.bytesPerFrame ∣ _ := ht
          refine balances_of_carries hring hconfig hposition ?_ ?_ hoverruns hunderruns
          · rw [List.length_append]
            exact Nat.dvd_add hwhole hframe
          · rw [List.length_append, Nat.add_div_of_dvd_right hwhole, hframes, ← Nat.add_assoc]
            exact Nat.add_right_comm ..
      | refused hring hposition =>
          refine balances_of_carries hring hconfig hposition hwhole hframes ?_ hunderruns
          rw [hoverruns]
          rfl
      | read n short hn hring hposition =>
          have hwant : l.session.bytesPerFrame ∣ n := by
            rcases hn with rfl | rfl
            · exact ht
            · exact Nat.dvd_zero _
          have htaken : l.session.bytesPerFrame ∣ (l.session.unread.take n).length := by
            rw [List.length_take]
            rcases Nat.le_total n l.session.unread.length with hle | hle
            · rw [Nat.min_eq_left hle]
              exact hwant
            · rw [Nat.min_eq_right hle]
              exact hwhole
          have hsplit : l.session.unread.length =
              (l.session.unread.take n).length + (l.session.unread.drop n).length := by
            rw [← List.length_append, List.take_append_drop]
          refine balances_of_carries hring hconfig hposition ?_ ?_ hoverruns ?_
          · exact (Nat.dvd_add_iff_right htaken).mpr (hsplit ▸ hwhole)
          · rw [hframes, hsplit, Nat.add_div_of_dvd_right htaken, ← Nat.add_assoc]
            rfl
          · rw [hunderruns]
            rfl

theorem bytesPerFrame_step (l : Ledger) (t : OwnStep) :
    (l.step t).session.bytesPerFrame = l.session.bytesPerFrame := by
  cases t with
  | call c => exact l.session.bytesPerFrame_perform c
  | listen => rfl
  | control controls => rfl

theorem Balances.run (h : l.Balances) {steps : List OwnStep}
    (hsteps : ∀ t ∈ steps, t.IsWhole l.session.bytesPerFrame) : (l.run steps).Balances := by
  induction steps generalizing l with
  | nil => exact h
  | cons t rest ih =>
      obtain ⟨ht, hrest⟩ := List.forall_mem_cons.mp hsteps
      rw [← l.bytesPerFrame_step t] at hrest
      exact ih (h.step ht) hrest

theorem bytesPerFrame_run (l : Ledger) (steps : List OwnStep) :
    (l.run steps).session.bytesPerFrame = l.session.bytesPerFrame := by
  induction steps generalizing l with
  | nil => rfl
  | cons t rest ih => exact (ih (l.step t)).trans (l.bytesPerFrame_step t)

end Ledger

/-- A new session has nothing unread, and no frame was counted. -/
theorem Session.create_balances {host : Host} {home : Option RingHome} {id : Nat}
    {config : StreamConfig} {files files' : Directory} {handles handles' : HandleTable}
    {s : Session} (h : create host home id config files handles = (.ok s, files', handles')) :
    s.config = config ∧ Ledger.Balances ⟨s, {}⟩ := by
  rcases create_cases host home id config files handles with
    ⟨e, files', hmade⟩ | ⟨ring, files', ⟨hcheck, -, hholds⟩, hmade⟩
  · rw [hmade] at h
    cases h
  · rw [hmade] at h
    cases h
    refine ⟨rfl, Ledger.balances_of_carries (Ring.Carries.of_holds hcheck hholds) rfl rfl
      (Nat.dvd_zero _) ?_ rfl rfl⟩
    show 0 = 0 + 0 / _ + 0
    rw [Nat.zero_div]

/-- Frames are conserved. On every run from a new session whose ring nobody else uses, in which
every frame written and every read is of whole audio frames: the frames written are the frames
read, those still unread and those that a flush or a flushing pause dropped; the overruns are the
writes that found the ring full and the underruns the reads that came up short. No call that only
steers the session changes the ring, also where it takes the device away or brings one. -/
theorem frames_conserved {host : Host} {home : Option Session.RingHome} {id : Nat}
    {config : StreamConfig} {files files' : Directory} {handles handles' : HandleTable}
    {s : Session}
    (h : Session.create host home id config files handles = (.ok s, files', handles'))
    {steps : List OwnStep} (hsteps : ∀ t ∈ steps, t.IsWhole config.info.bytesPerFrame) :
    let l := Ledger.run ⟨s, {}⟩ steps
    let p := l.session.position
    config.info.bytesPerFrame ∣ l.session.unread.length ∧
      p.framesWritten = p.framesRead + l.session.unread.length / config.info.bytesPerFrame +
        l.tally.discarded ∧
      p.overruns = l.tally.refused ∧ p.underruns = l.tally.short ∧
      ∀ c, c.steers →
        (l.session.perform c).2.1.ring = l.session.ring ∧
          (l.session.perform c).2.1.unread = l.session.unread := by
  intro l p
  obtain ⟨hconfig, hnew⟩ := Session.create_balances h
  have hbytes : s.bytesPerFrame = config.info.bytesPerFrame := by
    rw [Session.bytesPerFrame, hconfig]
  have hend : l.session.bytesPerFrame = config.info.bytesPerFrame :=
    (Ledger.bytesPerFrame_run ⟨s, {}⟩ steps).trans hbytes
  have hbalances : l.Balances := hnew.run (by rw [hbytes]; exact hsteps)
  obtain ⟨-, hwhole, hframes, hoverruns, hunderruns⟩ := hbalances
  rw [hend] at hwhole hframes
  refine ⟨hwhole, hframes, hoverruns, hunderruns, fun c hc => ?_⟩
  obtain ⟨hring, -⟩ := l.session.steers_perform hc
  exact ⟨hring, by rw [Session.unread, hring, Session.unread]⟩

/-- The device goes away and comes back while three frames are queued, of which one is read. -/
theorem frames_conserved_over_device_loss :
    let config : StreamConfig := ⟨.render .music, {}, 1000, 16, 4⟩
    let speaker : Device := { type := .speaker, role := .output, connectedAt := 1 }
    let steps : List OwnStep := [.call .resolve, .call (.bind speaker), .call .start,
      .call (.write (List.replicate 12 1) 5), .call (.read 4), .call (.bind .none),
      .call (.bind speaker)]
    (∀ t ∈ steps, t.IsWhole config.info.bytesPerFrame) ∧
      ∃ s files handles, Session.create {} none 1 config ∅ {} = (.ok s, files, handles) ∧
        let l := Ledger.run ⟨s, {}⟩ steps
        l.session.position.framesWritten = 3 ∧
          l.session.position.framesRead + l.session.unread.length / config.info.bytesPerFrame +
            l.tally.discarded = 3 := by
  intro config speaker steps
  have hbytes : config.info.bytesPerFrame = 4 := rfl
  have hsteps : ∀ t ∈ steps, t.IsWhole config.info.bytesPerFrame := by
    simp [steps, OwnStep.IsWhole, hbytes]
  have hconserved : ∀ s files handles,
      Session.create {} none 1 config ∅ {} = (.ok s, files, handles) →
      let l := Ledger.run ⟨s, {}⟩ steps
      l.session.position.framesWritten = 3 →
        l.session.position.framesRead + l.session.unread.length / config.info.bytesPerFrame +
          l.tally.discarded = 3 := by
    intro s files handles hmade l hwritten
    exact (frames_conserved hmade hsteps).2.1.symm.trans hwritten
  have hmade : Session.create {} none 1 ⟨.render .music, {}, 1000, 16, 4⟩ ∅ {} =
    (.ok _, _, _) := rfl
  refine ⟨hsteps, _, _, _, hmade, ?_⟩
  refine and_iff_left_of_imp (hconserved _ _ _ hmade) |>.mpr ?_
  decide +kernel

end Patchbay
