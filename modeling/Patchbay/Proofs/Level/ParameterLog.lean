import Patchbay.Level.Parameters
import Patchbay.Proofs.Inboxes
import Patchbay.Proofs.Tables

/-!
# Parameter changes as a log

What a call is answered with tells what it does: an error leaves all as it was, and an accepted
call puts one entry and sends one change to all listeners. In a change the key of another machine
is a mere label, so it names an entry only together with network and condition; that no two keys
have the same label is what makes the log as good as the tables themselves.
-/
namespace Patchbay

/-- A call that sets a parameter, of this machine or of another one. -/
inductive ParameterCall where
  | here (key value : String)
  | there (network : String) (key : RemoteKey) (condition value : String)
deriving DecidableEq

namespace ParameterCall

/-- The change that listeners see once the call is accepted. -/
def change : ParameterCall → ParameterChange
  | here key value => ⟨none, key, "", value⟩
  | there network key condition value => ⟨some network, key.label, condition, value⟩

/-- What the call sets under a key of this machine. -/
def valueHere? (k : String) : ParameterCall → Option String
  | here key value => if key = k then some value else none
  | there .. => none

/-- What the call sets under network, key and condition. -/
def valueThere? (n : String) (k : RemoteKey) (c : String) : ParameterCall → Option String
  | here .. => none
  | there network key condition value =>
    if (network, key, condition) = (n, k, c) then some value else none

end ParameterCall

/-- All parameters as one knows them who sees labels for the keys of other machines. -/
structure ParameterSheet where
  here : Table String String
  there : Table (String × String × String) String
deriving DecidableEq

/-- The key of a sheet for network, key and condition. -/
def ParameterSheet.labelled (k : String × RemoteKey × String) : String × String × String :=
  (k.1, k.2.1.label, k.2.2)

theorem RemoteKey.label_injective : Function.Injective label := by
  intro k l h
  cases k <;> cases l <;> first | rfl | exact absurd h (by decide)

theorem ParameterSheet.labelled_injective : Function.Injective labelled := by
  rintro ⟨network, key, condition⟩ ⟨network', key', condition'⟩ h
  obtain ⟨hnetwork, hrest⟩ := Prod.mk.inj h
  obtain ⟨hkey, hcondition⟩ := Prod.mk.inj hrest
  exact Prod.ext hnetwork (Prod.ext (RemoteKey.label_injective hkey) hcondition)

/-- A change is put where it says. -/
def ParameterSheet.replay (sheet : ParameterSheet) (c : ParameterChange) : ParameterSheet :=
  match c.network with
  | none => { sheet with here := sheet.here.put c.key c.value }
  | some network => { sheet with there := sheet.there.put (network, c.key, c.condition) c.value }

namespace Parameters

def call (p : Parameters) : ParameterCall → Except PolicyError Unit × Parameters
  | .here key value => p.set key value
  | .there network key condition value => p.setRemote network key condition value

/-- Those of the calls, made one after the other, that are accepted. -/
def accepted (p : Parameters) : List ParameterCall → List ParameterCall
  | [] => []
  | c :: later => (if (p.call c).1.isOk then [c] else []) ++ (p.call c).2.accepted later

/-- What an accepted call does. -/
def store (p : Parameters) (c : ParameterCall) : Parameters :=
  let p := { p with listeners := p.listeners.sendAll c.change }
  match c with
  | .here key value => { p with values := p.values.put key value }
  | .there network key condition value =>
    { p with remote := p.remote.put (network, key, condition) value }

def sheet (p : Parameters) : ParameterSheet where
  here := p.values
  there := p.remote.mapKeys ParameterSheet.labelled ParameterSheet.labelled_injective

end Parameters

/-- Parameters, and what was read by their listeners since one began to count. -/
structure Listening where
  parameters : Parameters
  heard : Nat → List ParameterChange := fun _ => []

inductive ListeningStep where
  | call (c : ParameterCall)
  /-- Entries are taken over from changed settings. -/
  | apply (changes : List (String × String))
  | listen
  /-- A listener reads all that waits. -/
  | read (box : Nat)
  /-- A listener goes. -/
  | close (box : Nat)

/-- The calls that a step comes down to. -/
def ListeningStep.calls : ListeningStep → List ParameterCall
  | call c => [c]
  | apply changes => changes.map fun e => .here e.1 e.2
  | listen | read _ | close _ => []

namespace Listening

def step (a : Listening) : ListeningStep → Listening
  | .call c => { a with parameters := (a.parameters.call c).2 }
  | .apply changes => { a with parameters := a.parameters.apply changes }
  | .listen => { a with parameters := a.parameters.listen.2 }
  | .read box =>
    let (changes, parameters) := a.parameters.take box
    { parameters := parameters
      heard := fun i => if box = i then a.heard i ++ changes else a.heard i }
  | .close box => { a with parameters := a.parameters.close box }

def run (a : Listening) (steps : List ListeningStep) : Listening :=
  steps.foldl step a

/-- The calls of a run that are accepted, in order. -/
def accepted (a : Listening) : List ListeningStep → List ParameterCall
  | [] => []
  | t :: later => a.parameters.accepted t.calls ++ (a.step t).accepted later

/-- What a listener has received, whether it was read or still waits. -/
def received (a : Listening) (box : Nat) : List ParameterChange :=
  a.heard box ++ a.parameters.listeners.queued box

end Listening

/-- The last of the values under a key, in front of an older one. -/
theorem getLast?_filterMap_cons_or {α β : Type} (f : α → Option β) (a : α) (l : List α)
    (older : Option β) :
    ((a :: l).filterMap f).getLast?.or older = (l.filterMap f).getLast?.or ((f a).or older) := by
  rw [List.filterMap_cons]
  cases f a with
  | none => rfl
  | some b =>
      rw [List.getLast?_cons, Option.some_or]
      cases (l.filterMap f).getLast? <;> rfl

namespace ParameterSheet

variable (sheet : ParameterSheet)

theorem here_replay (c : ParameterCall) (key : String) :
    (sheet.replay c.change).here.get? key = (c.valueHere? key).or (sheet.here.get? key) := by
  cases c with
  | here k value =>
      show Table.get? (sheet.here.put k value) key = _
      rw [Table.get?_put]
      by_cases hk : k = key <;> simp [ParameterCall.valueHere?, hk]
  | there => rfl

theorem there_replay (c : ParameterCall) (n : String) (k : RemoteKey) (condition : String) :
    (sheet.replay c.change).there.get? (n, k.label, condition) =
      (c.valueThere? n k condition).or (sheet.there.get? (n, k.label, condition)) := by
  cases c with
  | here => rfl
  | there network key condition' value =>
      show Table.get? (sheet.there.put (labelled (network, key, condition')) value)
        (labelled (n, k, condition)) = _
      rw [Table.get?_put]
      by_cases hk : (network, key, condition') = (n, k, condition)
      · simp [ParameterCall.valueThere?, hk]
      · have hlabelled := labelled_injective.ne hk
        rw [if_neg (by simpa using hlabelled)]
        simp [ParameterCall.valueThere?, hk, labelled]

theorem here_foldl_replay (cs : List ParameterCall) (key : String) :
    ((cs.map (·.change)).foldl replay sheet).here.get? key =
      (cs.filterMap (·.valueHere? key)).getLast?.or (sheet.here.get? key) := by
  induction cs generalizing sheet with
  | nil => rfl
  | cons c cs ih =>
      rw [List.map_cons, List.foldl_cons, ih, here_replay, getLast?_filterMap_cons_or]

theorem there_foldl_replay (cs : List ParameterCall) (n : String) (k : RemoteKey)
    (condition : String) :
    ((cs.map (·.change)).foldl replay sheet).there.get? (n, k.label, condition) =
      (cs.filterMap (·.valueThere? n k condition)).getLast?.or
        (sheet.there.get? (n, k.label, condition)) := by
  induction cs generalizing sheet with
  | nil => rfl
  | cons c cs ih =>
      rw [List.map_cons, List.foldl_cons, ih, there_replay, getLast?_filterMap_cons_or]

end ParameterSheet

namespace Parameters

variable (p : Parameters)

/-- A call changes nothing, or is accepted and does all that it says. -/
theorem call_cases (c : ParameterCall) :
    ((p.call c).1.isOk = false ∧ (p.call c).2 = p) ∨
      ((p.call c).1.isOk ∧ (p.call c).2 = p.store c) := by
  cases c with
  | here key value =>
      unfold call set
      dsimp only
      split
      · exact .inl ⟨rfl, rfl⟩
      · exact .inr ⟨rfl, rfl⟩
  | there network key condition value =>
      unfold call setRemote
      dsimp only
      split
      · exact .inl ⟨rfl, rfl⟩
      · split
        · exact .inl ⟨rfl, rfl⟩
        · exact .inr ⟨rfl, rfl⟩

theorem apply_eq_calls (changes : List (String × String)) :
    p.apply changes =
      (ListeningStep.apply changes).calls.foldl (fun p c => (p.call c).2) p := by
  unfold apply ListeningStep.calls
  rw [List.foldl_map]
  rfl

theorem foldl_call (cs : List ParameterCall) :
    cs.foldl (fun p c => (p.call c).2) p = (p.accepted cs).foldl store p := by
  induction cs generalizing p with
  | nil => rfl
  | cons c cs ih =>
      rw [List.foldl_cons, ih, accepted]
      rcases p.call_cases c with ⟨hok, hsame⟩ | ⟨hok, hstore⟩
      · rw [hok, hsame]
        rfl
      · rw [if_pos hok, hstore]
        rfl

theorem there_sheet (n : String) (k : RemoteKey) (condition : String) :
    p.sheet.there.get? (n, k.label, condition) = p.remote.get? (n, k, condition) :=
  Table.get?_mapKeys ParameterSheet.labelled_injective p.remote (n, k, condition)

/-- Who replays the change of an accepted call does what the call did. -/
theorem sheet_store (c : ParameterCall) : (p.store c).sheet = p.sheet.replay c.change := by
  cases c with
  | here => rfl
  | there network key condition value =>
      exact congrArg (ParameterSheet.mk p.values)
        (Table.put_mapKeys ParameterSheet.labelled_injective p.remote (network, key, condition)
          value).symm

theorem sheet_foldl_store (cs : List ParameterCall) :
    (cs.foldl store p).sheet = (cs.map (·.change)).foldl ParameterSheet.replay p.sheet := by
  induction cs generalizing p with
  | nil => rfl
  | cons c cs ih => rw [List.foldl_cons, ih, sheet_store, List.map_cons, List.foldl_cons]

theorem listeners_store (c : ParameterCall) :
    (p.store c).listeners = p.listeners.sendAll c.change := by
  cases c <;> rfl

variable {p} {box : Nat}

theorem queued_foldl_store (h : p.listeners.isOpen box) (cs : List ParameterCall) :
    (cs.foldl store p).listeners.isOpen box ∧
      (cs.foldl store p).listeners.queued box =
        p.listeners.queued box ++ cs.map (·.change) := by
  induction cs generalizing p with
  | nil => exact ⟨h, (List.append_nil _).symm⟩
  | cons c cs ih =>
      have hopen : (p.store c).listeners.isOpen box := by
        rw [listeners_store, Inboxes.isOpen_sendAll]
        exact h
      obtain ⟨hlater, hqueued⟩ := ih hopen
      refine ⟨hlater, ?_⟩
      rw [List.foldl_cons, hqueued, listeners_store, Inboxes.queued, Inboxes.take_sendAll h,
        List.append_assoc]
      rfl

end Parameters

namespace Listening

variable (a : Listening)

/-- The calls are made, and nothing is read. -/
def after (cs : List ParameterCall) : Listening :=
  { a with parameters := (a.parameters.accepted cs).foldl Parameters.store a.parameters }

theorem step_call (c : ParameterCall) : a.step (.call c) = a.after [c] := by
  unfold after
  rw [← Parameters.foldl_call]
  rfl

theorem step_apply (changes : List (String × String)) :
    a.step (.apply changes) = a.after (ListeningStep.apply changes).calls := by
  unfold after
  rw [← Parameters.foldl_call, ← Parameters.apply_eq_calls]
  rfl

theorem sheet_step (t : ListeningStep) :
    (a.step t).parameters.sheet =
      ((a.parameters.accepted t.calls).map (·.change)).foldl ParameterSheet.replay
        a.parameters.sheet := by
  cases t with
  | call c =>
      rw [step_call]
      exact Parameters.sheet_foldl_store ..
  | apply changes =>
      rw [step_apply]
      exact Parameters.sheet_foldl_store ..
  | listen | read | close => rfl

theorem sheet_run (steps : List ListeningStep) :
    (a.run steps).parameters.sheet =
      ((a.accepted steps).map (·.change)).foldl ParameterSheet.replay a.parameters.sheet := by
  induction steps generalizing a with
  | nil => rfl
  | cons t later ih =>
      calc (a.run (t :: later)).parameters.sheet
          = ((a.step t).run later).parameters.sheet := rfl
        _ = (((a.step t).accepted later).map (·.change)).foldl ParameterSheet.replay
              (a.step t).parameters.sheet := ih _
        _ = ((a.accepted (t :: later)).map (·.change)).foldl ParameterSheet.replay
              a.parameters.sheet := by
            rw [sheet_step, accepted, List.map_append, List.foldl_append]

variable {a} {box : Nat}

theorem received_after (h : a.parameters.listeners.isOpen box) (cs : List ParameterCall) :
    (a.after cs).parameters.listeners.isOpen box ∧
      (a.after cs).received box =
        a.received box ++ (a.parameters.accepted cs).map (·.change) := by
  obtain ⟨hopen, hqueued⟩ := Parameters.queued_foldl_store h (a.parameters.accepted cs)
  refine ⟨hopen, ?_⟩
  unfold received after
  dsimp only
  rw [hqueued, List.append_assoc]

/-- As long as a listener stays, it gets the changes of all accepted calls and keeps what it
got. -/
theorem received_step (h : a.parameters.listeners.isOpen box) {t : ListeningStep}
    (ht : t ≠ .close box) :
    (a.step t).parameters.listeners.isOpen box ∧
      (a.step t).received box =
        a.received box ++ (a.parameters.accepted t.calls).map (·.change) := by
  cases t with
  | call c =>
      rw [step_call]
      exact received_after h _
  | apply changes =>
      rw [step_apply]
      exact received_after h _
  | listen =>
      refine ⟨Inboxes.isOpen_join h, ?_⟩
      exact (congrArg _ (Inboxes.take_join h)).trans (List.append_nil _).symm
  | read j =>
      refine ⟨(Inboxes.isOpen_take ..).trans h, ?_⟩
      exact (Inboxes.heard_take ..).trans (List.append_nil _).symm
  | close j =>
      have hne : j ≠ box := fun hsame => ht (by rw [hsame])
      refine ⟨(Inboxes.isOpen_close hne).trans h, ?_⟩
      exact (congrArg _ (Inboxes.take_close hne)).trans (List.append_nil _).symm

theorem received_run (h : a.parameters.listeners.isOpen box) {steps : List ListeningStep}
    (hsteps : .close box ∉ steps) :
    (a.run steps).received box = a.received box ++ (a.accepted steps).map (·.change) := by
  induction steps generalizing a with
  | nil => exact (List.append_nil _).symm
  | cons t later ih =>
      rw [List.mem_cons, not_or] at hsteps
      obtain ⟨hopen, hreceived⟩ := received_step h (Ne.symm hsteps.1)
      calc (a.run (t :: later)).received box
          = ((a.step t).run later).received box := rfl
        _ = (a.step t).received box ++ ((a.step t).accepted later).map (·.change) :=
            ih hopen hsteps.2
        _ = a.received box ++ (a.accepted (t :: later)).map (·.change) := by
            rw [hreceived, List.append_assoc, ← List.map_append, accepted]

end Listening

/-- The changes are a faithful log. Who listens at any time and stays receives the change of each
accepted call from then on, in order and no other, and has by replaying them on the entries of
that time those of now; no two entries of other machines have one place there. A call that is not
accepted leaves all as it was, what waits for listeners included. And a look-up finds what the
last accepted call for just this entry has set, else what was there at the start. -/
theorem parameter_changes_replayed (initial : Table String String)
    (before after : List ListeningStep) :
    let start : Listening := { parameters := { values := initial } }
    let p := (start.run before).parameters
    let box := p.listen.1
    let joined : Listening := { parameters := p.listen.2 }
    let now := (joined.run after).parameters
    let accepted := start.accepted before ++ joined.accepted after
    (.close box ∉ after →
      let log := (joined.run after).received box
      log = (joined.accepted after).map (·.change) ∧
        log.foldl ParameterSheet.replay p.sheet = now.sheet) ∧
    (∀ key, now.sheet.here.get? key = now.values.get? key) ∧
    (∀ network key condition, now.sheet.there.get? (network, key.label, condition) =
      now.remote.get? (network, key, condition)) ∧
    (∀ c, (now.call c).1.isOk = false → (now.call c).2 = now) ∧
    (∀ key, now.get key =
      ((accepted.filterMap (·.valueHere? key)).getLast?.or (initial.get? key)).getD "") ∧
    ∀ network key condition, now.getRemote network key condition =
      ((accepted.filterMap (·.valueThere? network key condition)).getLast?).getD "" := by
  intro start p box joined now accepted
  have hnow : now.sheet =
      (accepted.map (·.change)).foldl ParameterSheet.replay start.parameters.sheet := by
    have hjoined : joined.parameters.sheet = p.sheet := rfl
    rw [joined.sheet_run, hjoined, start.sheet_run, List.map_append, List.foldl_append]
  refine ⟨?_, fun _ => rfl, now.there_sheet, ?_, ?_, ?_⟩
  · intro hopen log
    obtain ⟨hjoined, hempty⟩ := p.listeners.take_join_self
    have hlog : log = (joined.accepted after).map (·.change) := by
      have hreceived : log = joined.received box ++ (joined.accepted after).map (·.change) :=
        Listening.received_run hjoined hopen
      have hnothing : joined.received box = [] := hempty
      rw [hreceived, hnothing, List.nil_append]
    refine ⟨hlog, ?_⟩
    rw [hlog]
    exact (joined.sheet_run after).symm
  · intro c hrefused
    rcases now.call_cases c with ⟨-, hsame⟩ | ⟨hok, -⟩
    · exact hsame
    · rw [hrefused] at hok
      cases hok
  · intro key
    have hhere : now.values.get? key = now.sheet.here.get? key := rfl
    rw [Parameters.get, hhere, hnow, ParameterSheet.here_foldl_replay]
    rfl
  · intro network key condition
    rw [Parameters.getRemote, ← now.there_sheet, hnow, ParameterSheet.there_foldl_replay,
      start.parameters.there_sheet]
    exact congrArg (Option.getD · "") Option.or_none

/-- A local key and a remote one of the same label, two conditions, refused calls and changed
settings, heard by the second of two listeners. -/
theorem low_power_here_and_there_replayed :
    let before : List ListeningStep := [.listen, .call (.here "low_power" "0")]
    let after : List ListeningStep :=
      [.call (.there "net-1" .lowPower "EVENT_TYPE=1;" "9"), .call (.here "" "lost"), .read 1,
        .call (.there "net-1" .none "" "lost"), .apply [("", "lost"), ("low_power", "1")],
        .close 0, .call (.there "net-1" .lowPower "EVENT_TYPE=2;" "3")]
    let start : Listening := { parameters := { values := .ofList [("audio.spatial", "on")] } }
    let p := (start.run before).parameters
    let joined : Listening := { parameters := p.listen.2 }
    let now := (joined.run after).parameters
    let log := (joined.run after).received p.listen.1
    .close p.listen.1 ∉ after ∧
      log = [⟨some "net-1", "low_power", "EVENT_TYPE=1;", "9"⟩, ⟨none, "low_power", "", "1"⟩,
        ⟨some "net-1", "low_power", "EVENT_TYPE=2;", "3"⟩] ∧
      log.foldl ParameterSheet.replay p.sheet = now.sheet ∧
      now.get "low_power" = "1" ∧ now.get "audio.spatial" = "on" ∧
      now.getRemote "net-1" .lowPower "EVENT_TYPE=1;" = "9" ∧
      now.getRemote "net-2" .lowPower "EVENT_TYPE=1;" = "" := by
  intro before after start p joined now log
  have hopen : .close p.listen.1 ∉ after := by
    have hbox : p.listen.1 = 1 := by decide +kernel
    rw [hbox]
    simp [after]
  have hlog : log = [⟨some "net-1", "low_power", "EVENT_TYPE=1;", "9"⟩,
      ⟨none, "low_power", "", "1"⟩, ⟨some "net-1", "low_power", "EVENT_TYPE=2;", "3"⟩] := by
    decide +kernel
  have hgets : now.get "low_power" = "1" ∧ now.get "audio.spatial" = "on" ∧
      now.getRemote "net-1" .lowPower "EVENT_TYPE=1;" = "9" ∧
      now.getRemote "net-2" .lowPower "EVENT_TYPE=1;" = "" := by
    decide +kernel
  clear_value before after
  obtain ⟨-, hreplayed⟩ := (parameter_changes_replayed _ before after).1 hopen
  exact ⟨hopen, hlog, hreplayed, hgets⟩

end Patchbay
