import Patchbay.Proofs.Wire.Fields
import Patchbay.Wire.Dispatch

/-!
# Responses

Which responses answer which kind of request, and that the client reads back what the server
wrote: the response of a success, the status of a failure.
-/
namespace Patchbay.Wire

variable {bs rest : List UInt8} {kind : RequestKind} {response : Response}

theorem takes_remaining {n : Nat} :
    Takes remaining bs n rest ↔ bs.length = n ∧ bs = rest := by
  show ((.ok bs.length, bs) : Except WireError Nat × List UInt8) = (.ok n, rest) ↔ _
  simp

@[simp]
theorem takes_readHandle {h : BufferHandle} :
    Takes readHandle bs h rest ↔ bs = writeHandle h ++ rest := by
  unfold readHandle
  simp only [takes_bind, takes_read64, takes_read32, takes_pure]
  constructor
  · rintro ⟨id, _, rfl, count, _, rfl, size, _, rfl, rfl, rfl⟩
    simp only [writeHandle, List.append_assoc]
  · rintro rfl
    simp only [writeHandle, List.append_assoc]
    exact ⟨_, _, rfl, _, _, rfl, _, _, rfl, rfl, rfl⟩

theorem minDevice_le_length (d : Device) : minDevice ≤ (writeDevice d).length := by
  simp only [minDevice, writeDevice, writeText, List.length_append, length_writeCode,
    length_write64, length_write32]
  omega

theorem minDevice_mul_le_length (ds : List Device) :
    minDevice * ds.length ≤ (ds.flatMap writeDevice).length := by
  induction ds with
  | nil => exact Nat.zero_le _
  | cons d ds ih =>
      have hd := minDevice_le_length d
      rw [List.flatMap_cons, List.length_append, List.length_cons, Nat.mul_succ]
      omega

theorem takes_readDevices {n : Nat} {ds : List Device} : Takes (readDevices n) bs ds rest ↔
    ds.length = n ∧ (∀ d ∈ ds, DeviceFits d) ∧ bs = ds.flatMap writeDevice ++ rest := by
  induction n generalizing bs ds rest with
  | zero =>
      rw [readDevices, takes_pure, List.length_eq_zero_iff]
      constructor
      · rintro ⟨rfl, rfl⟩
        exact ⟨rfl, by simp, rfl⟩
      · rintro ⟨rfl, -, rfl⟩
        exact ⟨rfl, rfl⟩
  | succ n ih =>
      simp only [readDevices, takes_bind, takes_readDevice, takes_pure, ih]
      constructor
      · rintro ⟨d, _, ⟨hd, rfl⟩, ds, _, ⟨hlen, hds, rfl⟩, rfl, rfl⟩
        refine ⟨by rw [List.length_cons, hlen], List.forall_mem_cons.mpr ⟨hd, hds⟩, ?_⟩
        rw [List.flatMap_cons, List.append_assoc]
      · rintro ⟨hlen, hds, rfl⟩
        cases ds with
        | nil => cases hlen
        | cons d ds =>
            rw [List.forall_mem_cons] at hds
            refine ⟨d, _, ⟨hds.1, ?_⟩, ds, _, ⟨Nat.succ.inj hlen, hds.2, rfl⟩, rfl, rfl⟩
            rw [List.flatMap_cons, List.append_assoc]

namespace Response

/-- The response has the layout that the answer to such a request has. -/
def Answers (kind : RequestKind) : Response → Prop
  | empty => kind ∈ [.start, .pause, .resume, .stop, .release, .setVolume, .setMuted,
      .setDeviceActive, .setRinger, .setParameter, .setRemoteParameter]
  | session _ _ => kind = .createSession
  | handle _ _ => kind = .resolveBuffer
  | handleInfo _ => kind = .handleInfo
  | devices _ => kind = .devices
  | volume _ => kind = .volume
  | flag _ => kind ∈ [.isMuted, .isActive, .isDeviceActive]
  | ringerMode _ => kind = .ringer
  | parameter _ => kind ∈ [.parameter, .remoteParameter]

/-- All texts of the response are texts that a reader accepts. -/
def Fits : Response → Prop
  | session _ d => DeviceFits d
  | handle _ path => TextFits path
  | devices ds => ∀ d ∈ ds, DeviceFits d
  | parameter value => TextFits value
  | _ => True

theorem takes_readPayload (h : response.Answers kind) (hfits : response.Fits)
    (hlen : response.payload.length < UInt32.size) :
    Takes (readPayload kind) (response.payload ++ rest) response rest := by
  cases response with
  | empty =>
      simp only [Answers, List.mem_cons, List.not_mem_nil, or_false] at h
      rcases h with rfl | rfl | rfl | rfl | rfl | rfl | rfl | rfl | rfl | rfl | rfl <;>
        exact takes_pure.mpr ⟨rfl, rfl⟩
  | session id d =>
      cases h
      have hd : DeviceFits d := hfits
      simp [readPayload, payload, hd]
  | handle b path =>
      cases h
      have hpath : TextFits path := hfits
      simp [readPayload, payload, hpath]
  | handleInfo i =>
      cases h
      simp only [readPayload, payload, takes_bind, takes_readHandle, takes_read64, takes_pure,
        List.append_assoc]
      exact ⟨_, _, rfl, _, _, rfl, _, _, rfl, _, _, rfl, _, _, rfl, _, _, rfl, _, _, rfl, _, _, rfl,
        rfl, rfl⟩
  | devices ds =>
      cases h
      have hmin := minDevice_mul_le_length ds
      have hcount : (UInt32.ofNat ds.length).toNat = ds.length := by
        rw [payload, List.length_append, length_write32] at hlen
        unfold minDevice at hmin
        exact UInt32.toNat_ofNat_of_lt' (by omega)
      simp only [readPayload, payload, takes_bind, takes_read32, takes_remaining, takes_ite,
        takes_throw, takes_readDevices, takes_pure, List.append_assoc]
      refine ⟨_, _, rfl, _, _, ⟨rfl, rfl⟩,
        Or.inr ⟨?_, ds, rest, ⟨hcount.symm, hfits, rfl⟩, rfl, rfl⟩⟩
      rw [hcount, List.length_append, Nat.not_lt, Nat.le_div_iff_mul_le (by decide), Nat.mul_comm]
      exact Nat.le_add_right_of_le hmin
  | volume v =>
      cases h
      simp [readPayload, payload]
  | flag b =>
      simp only [Answers, List.mem_cons, List.not_mem_nil, or_false] at h
      rcases h with rfl | rfl | rfl <;> cases b <;> simp [readPayload, payload, writeFlag]
  | ringerMode m =>
      cases h
      simp [readPayload, payload]
  | parameter value =>
      have hvalue : TextFits value := hfits
      simp only [Answers, List.mem_cons, List.not_mem_nil, or_false] at h
      rcases h with rfl | rfl <;> simp [readPayload, payload, hvalue]

theorem takes_readFor_encode (h : response.Answers kind) (hfits : response.Fits)
    (hlen : response.payload.length < UInt32.size) :
    Takes (readFor kind) response.encode response [] := by
  have hpayload : Takes (readPayload kind) (response.payload ++ []) response [] :=
    takes_readPayload h hfits hlen
  rw [List.append_nil] at hpayload
  unfold readFor
  simp only [takes_bind, takes_readCode, takes_ite, takes_throw]
  exact ⟨_, _, rfl, Or.inr ⟨not_not.mpr (Status.ofCode_code _), hpayload⟩⟩

theorem decode_encode (h : response.Answers kind) (hfits : response.Fits)
    (hlen : response.payload.length < UInt32.size) :
    decode (readFor kind) response.encode = .ok response :=
  decode_eq_ok_iff.mpr (takes_readFor_encode h hfits hlen)

theorem decode_encodeStatus {s : Status} (hs : s ≠ .success) :
    decode (readFor kind) (encodeStatus s) = .error (.status s) := by
  have hcode : Takes readCode (encodeStatus s) s.code [] :=
    takes_readCode.mpr (List.append_nil _).symm
  have hread : readFor kind (encodeStatus s) = (.error (.status s), []) := by
    unfold readFor
    rw [hcode.bind]
    simp only [Status.ofCode_code, ne_eq, hs, not_false_eq_true, if_true]
    rfl
  exact decode_eq_error hread

end Response

/-- The outcome is one that a request of this kind can have. -/
def IsOutcome (kind : RequestKind) : Except Status Response → Prop
  | .ok response => response.Answers kind
  | .error status => status ≠ .success

theorem decode_encodeOutcome {outcome : Except Status Response} (h : IsOutcome kind outcome)
    (hfits : ∀ response, outcome = .ok response →
      response.Fits ∧ response.payload.length < UInt32.size) :
    decode (Response.readFor kind) (encodeOutcome outcome) = outcome.mapError .status := by
  cases outcome with
  | ok response =>
      obtain ⟨hfits, hlen⟩ := hfits response rfl
      exact Response.decode_encode h hfits hlen
  | error status => exact Response.decode_encodeStatus h

end Patchbay.Wire
