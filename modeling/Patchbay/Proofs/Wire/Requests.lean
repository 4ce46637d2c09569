import Patchbay.Proofs.Wire.Fields

/-!
# The grammar of requests

A request message is read as a request exactly if it is written so, but for the byte of a flag
that is set, which may be any but zero. So no two requests share a message, and a message that is
cut short, goes on too long, holds an unknown code or is meant for another server is none.
-/
namespace Patchbay.Wire

variable {bs rest message : List UInt8} {kind : RequestKind} {r r' : Request} {token : String}

theorem usage_ofCode?_eq_some_iff {c : Int32} {u : StreamUsage} :
    StreamUsage.ofCode? c = some u ↔ c = u.code :=
  find?_code_eq_some_iff StreamUsage.ofCode?_code

theorem source_ofCode?_eq_some_iff {c : Int32} {s : SourceType} :
    SourceType.ofCode? c = some s ↔ c = s.code :=
  find?_code_eq_some_iff SourceType.ofCode?_code

@[simp]
theorem takes_readIntent {i : StreamIntent} :
    Takes readIntent bs i rest ↔ bs = writeIntent i ++ rest := by
  unfold readIntent
  simp only [takes_bind, takes_readCode, takes_ite, takes_known, takes_pure, takes_throw,
    usage_ofCode?_eq_some_iff, source_ofCode?_eq_some_iff]
  constructor
  · rintro ⟨kind, _, rfl, c, _, rfl, h⟩
    rcases h with ⟨rfl, u, _, ⟨rfl, rfl⟩, rfl, rfl⟩ | ⟨-, ⟨rfl, s, _, ⟨rfl, rfl⟩, rfl, rfl⟩ | h⟩
    · simp only [writeIntent, List.append_assoc]
    · simp only [writeIntent, List.append_assoc]
    · exact absurd h.2 id
  · rintro rfl
    cases i with
    | render u =>
        simp only [writeIntent, List.append_assoc]
        exact ⟨_, _, rfl, _, _, rfl, Or.inl ⟨rfl, u, _, ⟨rfl, rfl⟩, rfl, rfl⟩⟩
    | capture s =>
        simp only [writeIntent, List.append_assoc]
        exact ⟨_, _, rfl, _, _, rfl,
          Or.inr ⟨by decide, Or.inl ⟨rfl, s, _, ⟨rfl, rfl⟩, rfl, rfl⟩⟩⟩

@[simp]
theorem takes_readChannels {n : UInt16} :
    Takes readChannels bs n rest ↔ bs = write32 n.toUInt32 ++ rest := by
  unfold readChannels
  simp only [takes_bind, takes_read32, takes_ite, takes_pure, takes_throw, and_false, or_false]
  constructor
  · rintro ⟨w, _, rfl, hw, rfl, rfl⟩
    have hsame : (UInt16.ofNat w.toNat).toUInt32 = w := by
      rw [← UInt32.toNat_inj, UInt16.toNat_toUInt32, UInt16.toNat_ofNat', Nat.mod_eq_of_lt hw]
    rw [hsame]
  · rintro rfl
    refine ⟨n.toUInt32, rest, rfl, ?_, ?_, rfl⟩
    · rw [UInt16.toNat_toUInt32]
      exact n.toNat_lt
    · rw [UInt16.toNat_toUInt32, UInt16.ofNat_toNat]

@[simp]
theorem takes_readConfig {c : StreamConfig} :
    Takes readConfig bs c rest ↔ bs = writeConfig c ++ rest := by
  unfold readConfig
  simp only [takes_bind, takes_readIntent, takes_read32, takes_readChannels, takes_readFormat,
    takes_readCode, takes_pure]
  constructor
  · rintro ⟨i, _, rfl, rate, _, rfl, channels, _, rfl, format, _, rfl, uid, _, rfl, total, _, rfl,
      span, _, rfl, rfl, rfl⟩
    simp only [writeConfig, List.append_assoc]
  · rintro rfl
    simp only [writeConfig, List.append_assoc]
    exact ⟨_, _, rfl, _, _, rfl, _, _, rfl, _, _, rfl, _, _, rfl, _, _, rfl, _, _, rfl, rfl, rfl⟩

@[simp]
theorem declines_readIntent : Declines readIntent := by
  unfold readIntent
  refine declines_bind declines_readCode fun kind => declines_bind declines_readCode fun c => ?_
  refine declines_ite ?_ (declines_ite ?_ ?_) <;> simp

@[simp]
theorem declines_readChannels : Declines readChannels := by
  unfold readChannels
  refine declines_bind declines_read32 fun n => declines_ite ?_ ?_ <;> simp

@[simp]
theorem declines_readConfig : Declines readConfig := by
  unfold readConfig
  exact declines_bind declines_readIntent fun _ => declines_bind declines_read32 fun _ =>
    declines_bind declines_readChannels fun _ => declines_bind (declines_readKnown _ _) fun _ =>
    declines_bind declines_readCode fun _ => declines_bind declines_read32 fun _ =>
    declines_bind declines_read32 fun _ => declines_pure _

namespace Request

/-- The texts of a request. -/
def texts : Request → List String
  | parameter key => [key]
  | setParameter key value => [key, value]
  | remoteParameter network _ condition => [network, condition]
  | setRemoteParameter network _ condition value => [network, condition, value]
  | _ => []

/-- All texts of the request are texts that a reader accepts. -/
def Fits (r : Request) : Prop := ∀ s ∈ r.texts, TextFits s

/-- The fields of a request, with the byte `t` for a flag that is set. -/
def payloadWith (t : UInt8) : Request → List UInt8
  | pause id true => write64 id ++ [t]
  | setMuted g true => writeCode g.code ++ [t]
  | setDeviceActive d true => writeCode d.code ++ [t]
  | r => r.payload

/-- The message of a request, with the byte `t` for a flag that is set. -/
def encodeWith (t : UInt8) (r : Request) (token : String) : List UInt8 :=
  write32 r.kind.code ++ writeText token ++ r.payloadWith t

theorem payloadWith_one (r : Request) : r.payloadWith 1 = r.payload := by
  cases r with
  | pause id discard => cases discard <;> rfl
  | setMuted g m => cases m <;> rfl
  | setDeviceActive t active => cases active <;> rfl
  | _ => rfl

theorem encodeWith_one (r : Request) (token : String) : r.encodeWith 1 token = r.encode token := by
  rw [encodeWith, payloadWith_one, encode]

/-- The message is one of the request, in which the byte of a set flag may be any but zero. -/
def SpelledBy (r : Request) (token : String) (message : List UInt8) : Prop :=
  r.Fits ∧ ∃ t : UInt8, t ≠ 0 ∧ message = r.encodeWith t token

theorem takes_flag {front : List UInt8} {b : Bool} {f : UInt8 → List UInt8}
    (htrue : ∀ t, b = true → f t = front ++ [t]) (hfalse : ∀ t, b = false → f t = front ++ [0]) :
    (∃ t : UInt8, bs = front ++ t :: rest ∧ b = (t != 0)) ↔
      ∃ t : UInt8, t ≠ 0 ∧ bs = f t ++ rest := by
  cases b with
  | true =>
      constructor
      · rintro ⟨t, rfl, ht⟩
        refine ⟨t, by simpa using ht, ?_⟩
        simp [htrue t rfl]
      · rintro ⟨t, ht, rfl⟩
        refine ⟨t, ?_, by simpa using ht⟩
        simp [htrue t rfl]
  | false =>
      constructor
      · rintro ⟨t, rfl, ht⟩
        have ht : t = 0 := by simpa using ht
        refine ⟨1, by decide, ?_⟩
        simp [hfalse 1 rfl, ht]
      · rintro ⟨t, -, rfl⟩
        refine ⟨0, ?_, rfl⟩
        simp [hfalse t rfl]

theorem takes_readPayload : Takes (readPayload r.kind) bs r rest ↔
    r.Fits ∧ ∃ t : UInt8, t ≠ 0 ∧ bs = r.payloadWith t ++ rest := by
  have hset : ∃ t : UInt8, ¬ t = 0 := ⟨1, by decide⟩
  cases r with
  | pause id discard =>
      simp [readPayload, kind, Fits, texts]
      exact takes_flag (fun t h => by rw [h]; rfl) (fun t h => by rw [h]; rfl)
  | setMuted g m =>
      simp [readPayload, kind, Fits, texts, readGroup]
      exact takes_flag (fun t h => by rw [h]; rfl) (fun t h => by rw [h]; rfl)
  | setDeviceActive type active =>
      simp [readPayload, kind, Fits, texts, readType]
      exact takes_flag (fun t h => by rw [h]; rfl) (fun t h => by rw [h]; rfl)
  | setParameter key value =>
      simp [readPayload, kind, Fits, texts, payloadWith, payload, hset]
      exact and_right_comm
  | remoteParameter network key condition =>
      simp [readPayload, kind, Fits, texts, readKey, payloadWith, payload, hset]
      exact and_right_comm
  | setRemoteParameter network key condition value =>
      simp [readPayload, kind, Fits, texts, readKey, payloadWith, payload, hset]
      exact and_right_comm
  | _ => simp [readPayload, kind, Fits, texts, readGroup, readType, payloadWith, payload, hset]

theorem kind_of_takes (h : Takes (readPayload kind) bs r rest) : r.kind = kind := by
  cases kind <;> simp only [readPayload, takes_bind, takes_pure] at h <;> grind [Request.kind]

theorem kind_ofCode?_eq_some_iff {c : UInt32} :
    RequestKind.ofCode? c = some kind ↔ c = kind.code :=
  find?_code_eq_some_iff RequestKind.ofCode?_code

theorem takes_readKind : Takes readKind bs kind rest ↔ bs = write32 kind.code ++ rest := by
  unfold readKind
  simp only [takes_bind, takes_read32]
  constructor
  · rintro ⟨c, mid, rfl, h⟩
    cases hc : RequestKind.ofCode? c with
    | none =>
        rw [hc] at h
        exact absurd h takes_throw
    | some k =>
        rw [hc] at h
        obtain ⟨rfl, rfl⟩ := takes_pure.mp h
        rw [kind_ofCode?_eq_some_iff.mp hc]
  · rintro rfl
    refine ⟨kind.code, rest, rfl, ?_⟩
    rw [RequestKind.ofCode?_code]
    exact takes_pure.mpr ⟨rfl, rfl⟩

theorem takes_readFor : Takes (readFor token) bs r rest ↔
    TextFits token ∧ r.Fits ∧ ∃ t : UInt8, t ≠ 0 ∧ bs = r.encodeWith t token ++ rest := by
  unfold readFor
  simp only [takes_bind, takes_readKind, takes_readText, takes_ite, takes_throw, encodeWith,
    List.append_assoc]
  constructor
  · rintro ⟨kind, _, rfl, actual, _, ⟨hactual, rfl⟩, ⟨-, -, -, h, -⟩ | ⟨hsame, h⟩⟩
    · exact absurd h id
    · cases not_not.mp hsame
      have hkind := kind_of_takes h
      subst hkind
      obtain ⟨hfits, t, ht, rfl⟩ := takes_readPayload.mp h
      exact ⟨hactual, hfits, t, ht, rfl⟩
  · rintro ⟨htoken, hfits, t, ht, rfl⟩
    exact ⟨r.kind, _, rfl, token, _, ⟨htoken, rfl⟩,
      Or.inr ⟨not_not.mpr rfl, takes_readPayload.mpr ⟨hfits, t, ht, rfl⟩⟩⟩

/-- The grammar of requests. -/
theorem decode_readFor_eq_ok_iff (htoken : TextFits token) :
    decode (readFor token) message = .ok r ↔ r.SpelledBy token message := by
  rw [decode_eq_ok_iff, takes_readFor]
  simp only [List.append_nil]
  exact and_iff_right htoken

/-- Two requests that begin the same bytes are one, and end at the same place. -/
theorem SpelledBy.unique (htoken : TextFits token) (h : r.SpelledBy token message)
    {extra : List UInt8} (h' : r'.SpelledBy token (message ++ extra)) : r' = r ∧ extra = [] := by
  obtain ⟨hfits, t, ht, rfl⟩ := h
  obtain ⟨hfits', t', ht', hmessage⟩ := h'
  have hread : Takes (readFor token) (r.encodeWith t token ++ extra) r extra :=
    takes_readFor.mpr ⟨htoken, hfits, t, ht, rfl⟩
  have hread' : Takes (readFor token) (r'.encodeWith t' token) r' [] :=
    takes_readFor.mpr ⟨htoken, hfits', t', ht', (List.append_nil _).symm⟩
  rw [← hmessage] at hread'
  obtain ⟨hr, hextra⟩ := hread'.unique hread
  exact ⟨hr, hextra.symm⟩

/-- Every message of a request shows the token it was written with. -/
theorem takes_token (htoken : TextFits token) (t : UInt8) :
    Takes (readKind >>= fun _ => readText) (r.encodeWith t token) token (r.payloadWith t) := by
  rw [takes_bind]
  refine ⟨r.kind, _, takes_readKind.mpr ?_, takes_readText.mpr ⟨htoken, rfl⟩⟩
  rw [encodeWith, List.append_assoc]

/-- What is written for another server is no request for this one. -/
theorem SpelledBy.token_eq (htoken : TextFits token) {token' : String} (htoken' : TextFits token')
    {t' : UInt8} (h : r.SpelledBy token (r'.encodeWith t' token')) : token' = token := by
  obtain ⟨-, t, -, hmessage⟩ := h
  have htaken := takes_token htoken' t' (r := r')
  rw [hmessage] at htaken
  exact (htaken.unique (takes_token htoken t)).1

theorem declines_readPayload (kind : RequestKind) : Declines (readPayload kind) := by
  have hkey : Declines readKey := declines_readKnown _ _
  cases kind with
  | remoteParameter =>
      exact declines_bind declines_readText fun _ => declines_bind hkey fun _ =>
        declines_bind declines_readText fun _ => declines_pure _
  | setRemoteParameter =>
      exact declines_bind declines_readText fun _ => declines_bind hkey fun _ =>
        declines_bind declines_readText fun _ => declines_bind declines_readText fun _ =>
        declines_pure _
  | _ => simp [readPayload, readGroup, readType]

theorem declines_readFor (token : String) : Declines (readFor token) := by
  unfold readFor readKind
  refine declines_bind (declines_bind declines_read32 fun c => ?_) fun kind =>
    declines_bind declines_readText fun actual => ?_
  · cases RequestKind.ofCode? c with
    | none => exact declines_throw Status.noConfusion
    | some k => exact declines_pure k
  · refine declines_ite (declines_bind (declines_throw Status.noConfusion) fun _ => ?_) ?_ <;>
      exact declines_readPayload kind

end Request
end Patchbay.Wire
