import SscOnWindows.Lib.Latest
import SscOnWindows.Transport.State

/-!
# The SSC endpoint of the remote device

While the capabilities of a device are discovered, every endpoint with a vendor codec is reported
with its identifier and a blob.  An endpoint of SSC sets the four fields the transport keeps of
it; but a blob that ends behind the codec identifier leaves the capability byte of the endpoint
before.
-/

namespace Ssc

open Latest

/-- The four fields describe one endpoint, or none. -/
structure RemoteCodecCaps.Describes (caps : RemoteCodecCaps)
    (endpoint : Option (Nat × List UInt8)) : Prop where
  ssc : caps.ssc = endpoint.isSome
  sscSeid : caps.sscSeid = (endpoint.map Prod.fst).getD 0
  sscCap : caps.sscCap = (endpoint.bind fun e => e.2[6]?).getD 0
  sscUhq : caps.sscUhq = (caps.sscCap &&& 0x02 != 0)

namespace Transport

/-- The blob is one of SSC. -/
def isSscBlob (info : List UInt8) : Bool :=
  info.length ≥ 6 && readVendorId info = sscVendorId && readCodecId info = sscCodecId

namespace Event

/-- The endpoint of SSC an event reports, with its blob. -/
def sscEndpoint : Event → Option (Nat × List UInt8)
  | otherCapability seid info => if isSscBlob info then some (seid, info) else none
  | _ => none

/-- The capability byte of SSC an event reports. -/
def sscCapability (e : Event) : Option UInt8 :=
  e.sscEndpoint.bind fun endpoint => endpoint.2[6]?

end Event

/-- The transport behind some events, from where no capabilities are known. -/
def discover (t : Transport) (events : List Event) : Transport :=
  events.foldl (fun t e => (t.handleEvent e).1) { t with remoteCaps := {} }

/-- No endpoint of SSC without a capability byte is reported behind one with a byte that is not
zero, unless there is one with the byte zero between them. -/
def NoMixture (events : List Event) : Prop :=
  ∀ before e, before ++ [e] <+: events → e.sscEndpoint.isSome = true → e.sscCapability = none →
    latest Event.sscCapability before = none ∨ latest Event.sscCapability before = some 0

/-! ### The fields -/

/-- What a vendor codec does to the fields of SSC. -/
theorem otherCapability_ssc (caps : RemoteCodecCaps) (seid : Nat) (info : List UInt8) :
  let e := Event.otherCapability seid info
  (otherCapability caps seid info).ssc = (e.sscEndpoint.map fun _ => true).getD caps.ssc
    ∧ (otherCapability caps seid info).sscSeid = (e.sscEndpoint.map Prod.fst).getD caps.sscSeid
    ∧ (otherCapability caps seid info).sscCap = e.sscCapability.getD caps.sscCap
    ∧ (otherCapability caps seid info).sscUhq
      = (e.sscCapability.map fun cap => cap &&& 0x02 != 0).getD caps.sscUhq
  := by
  dsimp only
  rw [Event.sscCapability, Event.sscEndpoint, isSscBlob, otherCapability]
  by_cases hssc : info.length ≥ 6 ∧ readVendorId info = sscVendorId ∧ readCodecId info = sscCodecId
  · obtain ⟨hlength, hids⟩ := hssc
    rw [if_pos hlength, if_pos hids]
    by_cases hbyte : info.length ≥ 7
    · rw [if_pos hbyte]
      simp [hlength, hids, List.getElem?_eq_getElem hbyte]
    · have hnone : info[6]? = none := List.getElem?_eq_none (by omega)
      rw [if_neg hbyte]
      simp [hlength, hids, hnone]
  · have hblob : isSscBlob info = false := by
      rw [isSscBlob]
      simpa using hssc
    have hkeeps : otherCapability caps seid info = caps := by
      rw [otherCapability]
      split
      · rw [if_neg (fun hids => hssc ⟨by assumption, hids⟩)]
      · rfl
    rw [otherCapability] at hkeeps
    rw [hkeeps]
    rw [isSscBlob] at hblob
    simp [hblob]

/-- What an event does to the fields of SSC. -/
theorem handleEvent_ssc (t : Transport) (e : Event) :
  (t.handleEvent e).1.remoteCaps.ssc = (e.sscEndpoint.map fun _ => true).getD t.remoteCaps.ssc
    ∧ (t.handleEvent e).1.remoteCaps.sscSeid
      = (e.sscEndpoint.map Prod.fst).getD t.remoteCaps.sscSeid
    ∧ (t.handleEvent e).1.remoteCaps.sscCap = e.sscCapability.getD t.remoteCaps.sscCap
    ∧ (t.handleEvent e).1.remoteCaps.sscUhq
      = (e.sscCapability.map fun cap => cap &&& 0x02 != 0).getD t.remoteCaps.sscUhq
  := by
  cases e with
  | otherCapability seid info => apply otherCapability_ssc
  | signalingConnectionEstablished status cid =>
      rw [handleEvent, signalingConnectionEstablished]
      split <;> exact ⟨rfl, rfl, rfl, rfl⟩
  | streamEstablished status localSeid remoteSeid maxPayload =>
      rw [handleEvent, streamEstablished]
      split <;> exact ⟨rfl, rfl, rfl, rfl⟩
  | hciDisconnectionComplete =>
      rw [handleEvent, hciDisconnectionComplete]
      split <;> exact ⟨rfl, rfl, rfl, rfl⟩
  | inquiryResult device =>
      rw [handleEvent, inquiryResult]
      split <;> exact ⟨rfl, rfl, rfl, rfl⟩
  | canSendMediaPacketNow maxPayload status =>
      rw [handleEvent, canSendNow]
      split
      · exact ⟨rfl, rfl, rfl, rfl⟩
      · dsimp only
        split <;> exact ⟨rfl, rfl, rfl, rfl⟩
  | avrcpConnectionEstablished status cid =>
      rw [handleEvent]
      split <;> exact ⟨rfl, rfl, rfl, rfl⟩
  | hciWorking | hciOff | inquiryComplete | sbcCapability | aacCapability
  | capabilitiesComplete | streamStarted | streamSuspended | streamReleased
  | signalingConnectionReleased | avrcpConnectionReleased => exact ⟨rfl, rfl, rfl, rfl⟩

/-- Behind a discovery the fields are those of the last endpoint, but for the capability byte, which
is the last one there was. -/
theorem discover_describes_iff (t : Transport) (events : List Event) :
  (t.discover events).remoteCaps.Describes (latest Event.sscEndpoint events)
    ↔ (latest Event.sscCapability events).getD 0
      = ((latest Event.sscEndpoint events).bind fun e => e.2[6]?).getD 0
  := by
  have hssc : (t.discover events).remoteCaps.ssc = (latest Event.sscEndpoint events).isSome := by
    rw [discover, field_foldl (fun t : Transport => t.remoteCaps.ssc)
      (fun t e => (handleEvent_ssc t e).1), latest_map]
    cases latest Event.sscEndpoint events with
    | none => rfl
    | some endpoint => rfl
  have hseid : (t.discover events).remoteCaps.sscSeid
      = ((latest Event.sscEndpoint events).map Prod.fst).getD 0 := by
    rw [discover, field_foldl (fun t : Transport => t.remoteCaps.sscSeid)
      (fun t e => (handleEvent_ssc t e).2.1), latest_map]
  have hcap : (t.discover events).remoteCaps.sscCap
      = (latest Event.sscCapability events).getD 0 :=
    field_foldl (fun t : Transport => t.remoteCaps.sscCap)
      (fun t e => (handleEvent_ssc t e).2.2.1) _ events
  have huhq : (t.discover events).remoteCaps.sscUhq
      = ((t.discover events).remoteCaps.sscCap &&& 0x02 != 0) := by
    rw [hcap, discover, field_foldl (fun t : Transport => t.remoteCaps.sscUhq)
      (fun t e => (handleEvent_ssc t e).2.2.2), latest_map]
    cases latest Event.sscCapability events with
    | none => rfl
    | some cap => rfl
  constructor
  · intro h
    rw [← hcap, h.sscCap]
  · intro h
    exact ⟨hssc, hseid, hcap.trans h, huhq⟩

/-! ### Discoveries -/

theorem sscCapability_of_endpoint_none {e : Event} (h : e.sscEndpoint = none) :
  e.sscCapability = none
  := by rw [Event.sscCapability, h, Option.bind_none]

/-- At all times the fields describe the last endpoint of SSC exactly when no endpoint takes over a
capability byte. -/
theorem describes_iff (t : Transport) (events : List Event) :
  (∀ before, before <+: events →
      (t.discover before).remoteCaps.Describes (latest Event.sscEndpoint before))
    ↔ NoMixture events
  := by
  constructor
  · intro h before e hprefix hssc hnone
    obtain ⟨endpoint, hendpoint⟩ := Option.isSome_iff_exists.mp hssc
    have hbyte : endpoint.2[6]? = none := by
      rw [Event.sscCapability, hendpoint] at hnone
      apply hnone
    have hzero := (discover_describes_iff t _).mp (h _ hprefix)
    rw [latest_concat_of_none before hnone, latest_concat_of_some before hendpoint,
      Option.bind_some, hbyte, Option.getD_none] at hzero
    cases hcap : latest Event.sscCapability before with
    | none => exact .inl rfl
    | some cap =>
        rw [hcap, Option.getD_some] at hzero
        right
        rw [hzero]
  · intro h before
    rw [discover_describes_iff]
    induction before using List.reverseRecOn with
    | nil =>
        intro _
        rfl
    | append_singleton before e ih =>
        intro hprefix
        cases hendpoint : e.sscEndpoint with
        | none =>
            rw [latest_concat_of_none before hendpoint,
              latest_concat_of_none before (sscCapability_of_endpoint_none hendpoint)]
            apply ih ((List.prefix_append before [e]).trans hprefix)
        | some endpoint =>
            have hcapability : e.sscCapability = endpoint.2[6]? := by
              rw [Event.sscCapability, hendpoint, Option.bind_some]
            rw [latest_concat_of_some before hendpoint, Option.bind_some, ← hcapability]
            cases hcap : e.sscCapability with
            | some cap => rw [latest_concat_of_some before hcap]
            | none =>
                rw [latest_concat_of_none before hcap, Option.getD_none]
                rcases h before e hprefix (by rw [hendpoint]; rfl) hcap with hfirst | hzero
                · rw [hfirst, Option.getD_none]
                · rw [hzero, Option.getD_some]

/-- An endpoint with UHQ, and one without a capability byte behind it. -/
def mixedEndpoints : List Event :=
  [.otherCapability 1 [0x75, 0, 0, 0, 0x03, 0x01, 0x3E],
    .otherCapability 2 [0x75, 0, 0, 0, 0x03, 0x01]]

/-- The second endpoint gets the capability of the first one. -/
theorem not_describes_mixed :
  ¬ ∀ before, before <+: mixedEndpoints →
    (({} : Transport).discover before).remoteCaps.Describes (latest Event.sscEndpoint before)
  := by
  intro h
  have hcap := (h mixedEndpoints (List.prefix_refl _)).sscCap
  revert hcap
  decide

end Transport

end Ssc
