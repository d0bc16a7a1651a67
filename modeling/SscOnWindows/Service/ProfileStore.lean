import SscOnWindows.Lib.KeyedList
import SscOnWindows.Lib.Machine

/-!
# The store of the profiles

`profiles.json` has two writers.  The main window loads it once into its `ProfileManager`, and
writes its copy back with every profile that is added, edited or removed; an edited profile is
a new one from the dialog, without a link key.  `persist_link_key` of the worker loads the file
into a `ProfileManager` of its own, sets the key in the first profile of the device, and writes
that copy back.

A profile in the file, or in a copy of it, carries the number of the `add` it stems from, which
nothing in the code looks at.  Beside the file the store keeps what the operations so far come
to.  Each load and each save is one step and succeeds.
-/

namespace Ssc

open Machine KeyedList

variable {α : Type}

/-! ### Profiles -/

/-- `ConnectionProfile`.  Its strings consist of bytes in the file, and of characters in the
window. -/
structure ConnectionProfile (α : Type) where
  name : List α := []
  deviceAddress : List α := []
  deviceName : List α := []
  codec : List α := []
  quality : List α := []
  bitrateKbps : UInt32 := 0
  sampleRate : UInt32 := 0
  bitDepth : UInt32 := 0
  captureMode : List α := []
  audioDeviceId : List α := []
  audioDeviceName : List α := []
  autoSwitchDevice : Bool := true
  linkKey : List α := []
  linkKeyType : Int32 := 0
  deriving DecidableEq

namespace ConnectionProfile

/-- The profile with a link key. -/
def withKey (linkKey : List α) (linkKeyType : Int32) (p : ConnectionProfile α) :
    ConnectionProfile α :=
  { p with linkKey := linkKey, linkKeyType := linkKeyType }

/-- The profile with the link key of another, if that has one. -/
def withKeyOf (p old : ConnectionProfile α) : ConnectionProfile α :=
  if old.linkKey = [] then p else p.withKey old.linkKey old.linkKeyType

/-- The profile is read back from the file. -/
def named (p : ConnectionProfile α) : Bool :=
  p.name ≠ [] && p.deviceAddress ≠ []

/-- A profile as `ProfileDialog::OnSave` makes it. -/
def fromDialog (p : ConnectionProfile α) : Bool :=
  p.named && p.linkKey = [] && p.linkKeyType = 0

end ConnectionProfile

/-- A profile with the number of its `add`. -/
structure StoredProfile (α : Type) where
  id : Nat
  profile : ConnectionProfile α
  deriving DecidableEq

/-- The profiles of a `ProfileManager`, or of the file. -/
abbrev Profiles (α : Type) := List (StoredProfile α)

namespace Profiles

/-- What `load` makes of a file that was saved. -/
def load (file : Profiles α) : Profiles α :=
  file.filter (fun e => e.profile.named)

/-- The profile with the number `id` is changed. -/
def change (id : Nat) (f : ConnectionProfile α → ConnectionProfile α) (profiles : Profiles α) :
    Profiles α :=
  alter StoredProfile.id id (fun e => { e with profile := f e.profile }) profiles

/-- The profile with the number `id` is taken away. -/
def drop (id : Nat) (profiles : Profiles α) : Profiles α :=
  profiles.filter (fun e => e.id ≠ id)

end Profiles

/-! ### The store -/

/-- `persist_link_key` between its load and its save: the copy, the index of the profile of the
device in it, and the key to be set. -/
structure PendingSave (α : Type) where
  profiles : Profiles α
  index : Fin profiles.length
  linkKey : List α
  linkKeyType : Int32

namespace PendingSave

/-- The number of the profile that gets the key. -/
def target (q : PendingSave α) : Nat := q.profiles[q.index].id

/-- The copy the worker saves. -/
def updated (q : PendingSave α) : Profiles α :=
  q.profiles.set q.index
    { q.profiles[q.index] with
      profile := q.profiles[q.index].profile.withKey q.linkKey q.linkKeyType }

end PendingSave

/-- The file, the copy of the window, the worker in `persist_link_key`, what the operations come
to, and the number of the next `add`. -/
structure ProfileStore (α : Type) where
  file : Profiles α
  window : Profiles α
  pending : Option (PendingSave α) := none
  ideal : Profiles α
  nextId : Nat

/-- An operation of the window or a step of the worker.  The program may be started again. -/
inductive StoreAction (α : Type) where
  | add (p : ConnectionProfile α)
  | update (index : Nat) (p : ConnectionProfile α)
  | remove (index : Nat)
  | persistLoad (address linkKey : List α) (linkKeyType : Int32)
  | persistSave
  | restart
  deriving DecidableEq

/-- What `persist_link_key` does with the profiles it has loaded: nothing when there is none of
the device, or when the first of them has the key. -/
def persistLinkKey [DecidableEq α] (profiles : Profiles α) (address linkKey : List α)
    (linkKeyType : Int32) : Option (PendingSave α) :=
  if h : profiles.findIdx (fun e => e.profile.deviceAddress = address) < profiles.length then
    let index : Fin profiles.length := ⟨_, h⟩
    let old := profiles[index].profile
    if old.linkKey ≠ [] ∧ old.linkKey = linkKey ∧ old.linkKeyType = linkKeyType then none
    else some { profiles, index, linkKey, linkKeyType }
  else none

namespace ProfileStore

/-- The window has loaded a file with the profiles. -/
def start (profiles : List (ConnectionProfile α)) : ProfileStore α :=
  let file : Profiles α := profiles.mapIdx fun i p => { id := i, profile := p }
  { file := file, window := file.load, ideal := file.load, nextId := profiles.length }

/-- The window saves its copy. -/
def saveWindow (s : ProfileStore α) (profiles ideal : Profiles α) : ProfileStore α :=
  { s with file := profiles, window := profiles, ideal := ideal }

/-- One step. -/
def next [DecidableEq α] (s : ProfileStore α) : StoreAction α → Option (ProfileStore α)
  | .add p =>
      if p.fromDialog then
        some { s.saveWindow (s.window ++ [{ id := s.nextId, profile := p }])
            (s.ideal ++ [{ id := s.nextId, profile := p }]) with
          nextId := s.nextId + 1 }
      else none
  | .update index p =>
      if p.fromDialog then
        match s.window[index]? with
        | none => some s
        | some e => some (s.saveWindow (s.window.set index { e with profile := p })
            (s.ideal.change e.id p.withKeyOf))
      else none
  | .remove index =>
      match s.window[index]? with
      | none => some s
      | some e => some (s.saveWindow (s.window.eraseIdx index) (s.ideal.drop e.id))
  | .persistLoad address linkKey linkKeyType =>
      if s.pending.isSome then none
      else some { s with pending := persistLinkKey s.file.load address linkKey linkKeyType }
  | .persistSave =>
      match s.pending with
      | none => none
      | some q => some { s with
          file := q.updated
          pending := none
          ideal := s.ideal.change q.target (ConnectionProfile.withKey q.linkKey q.linkKeyType) }
  | .restart => some { s with window := s.file.load, pending := none }

/-- The file holds what the operations come to. -/
def Lossless (s : ProfileStore α) : Prop :=
  s.file.load = s.ideal

instance [DecidableEq α] (s : ProfileStore α) : Decidable s.Lossless :=
  inferInstanceAs (Decidable (_ = _))

/-- The copy an operation writes back agrees with the file in all it does not write itself: in
every profile for `add`, in the other profiles for `remove`, in the other profiles for `update`
of one that has no key, and in all but the key of the profile of the device for the worker. -/
def Current (s : ProfileStore α) : StoreAction α → Prop
  | .add _ => s.window = s.file.load
  | .update index _ =>
      ∀ e ∈ s.window[index]?,
        s.window.change e.id (fun _ => {}) = s.file.load.change e.id (fun _ => {})
          ∧ ∀ d ∈ s.file.load, d.id = e.id → d.profile.linkKey = []
  | .remove index => ∀ e ∈ s.window[index]?, s.window.drop e.id = s.file.load.drop e.id
  | .persistSave =>
      ∀ q ∈ s.pending,
        q.profiles.change q.target (ConnectionProfile.withKey [] 0)
          = s.file.load.change q.target (ConnectionProfile.withKey [] 0)
  | .persistLoad _ _ _ | .restart => True

instance [DecidableEq α] (s : ProfileStore α) (a : StoreAction α) : Decidable (s.Current a) :=
  match a with
  | .add _ => inferInstanceAs (Decidable (_ = _))
  | .update index _ => inferInstanceAs (Decidable (∀ e ∈ s.window[index]?, _ ∧ ∀ d ∈ _, _ → _))
  | .remove index => inferInstanceAs (Decidable (∀ e ∈ s.window[index]?, _ = _))
  | .persistSave => inferInstanceAs (Decidable (∀ q ∈ s.pending, _ = _))
  | .persistLoad _ _ _ | .restart => inferInstanceAs (Decidable True)

end ProfileStore

/-! ### Numbers -/

namespace Profiles

/-- The profiles have different numbers below `n`, and are read back from the file. -/
structure Tidy (n : Nat) (profiles : Profiles α) : Prop where
  nodup : (profiles.map StoredProfile.id).Nodup
  lt : ∀ e ∈ profiles, e.id < n
  load_eq : profiles.load = profiles

variable {n id : Nat} {profiles : Profiles α} {f : ConnectionProfile α → ConnectionProfile α}

theorem load_load (profiles : Profiles α) :
  profiles.load.load = profiles.load
  := by
  rw [load, load, List.filter_filter]
  simp only [Bool.and_self]

theorem named_of_mem (h : profiles.load = profiles) {e : StoredProfile α} (he : e ∈ profiles) :
  e.profile.named = true
  := by
  rw [load, List.filter_eq_self] at h
  apply h e he

theorem Tidy.mono (h : Tidy n profiles) :
  Tidy (n + 1) profiles
  where
  nodup := h.nodup
  lt := by
    intro e he
    have hlt := h.lt e he
    omega
  load_eq := h.load_eq

/-- A part of tidy profiles is tidy. -/
theorem Tidy.sublist (h : Tidy n profiles) {part : Profiles α} (hpart : part.Sublist profiles) :
  Tidy n part
  where
  nodup := h.nodup.sublist (hpart.map _)
  lt e he := h.lt e (hpart.subset he)
  load_eq := by
    rw [load, List.filter_eq_self]
    intro e he
    apply named_of_mem h.load_eq (hpart.subset he)

/-- A new profile gets a number of its own. -/
theorem Tidy.append (h : Tidy n profiles) {p : ConnectionProfile α} (hp : p.named = true) :
  Tidy (n + 1) (profiles ++ [{ id := n, profile := p }])
  where
  nodup := by
    rw [List.map_append, List.map_singleton, List.nodup_append]
    use h.nodup, List.nodup_singleton n
    intro a ha b hb
    obtain ⟨e, he, rfl⟩ := List.mem_map.mp ha
    rw [List.mem_singleton.mp hb]
    apply Nat.ne_of_lt (h.lt e he)
  lt := by
    intro e he
    rcases List.mem_append.mp he with he | he
    · apply h.mono.lt e he
    · obtain rfl := List.mem_singleton.mp he
      apply Nat.lt_succ_self
  load_eq := by
    rw [load, List.filter_append, ← load, h.load_eq]
    simp [hp]

/-- A changed profile keeps its number. -/
theorem map_id_change :
  (profiles.change id f).map StoredProfile.id = profiles.map StoredProfile.id
  := map_key_alter (fun _ => rfl)

/-- What is changed to a profile that is read back is tidy. -/
theorem Tidy.change (h : Tidy n profiles) (hf : ∀ p, p.named = true → (f p).named = true) :
  Tidy n (profiles.change id f)
  where
  nodup := by
    rw [map_id_change]
    apply h.nodup
  lt := by
    intro e he
    obtain ⟨d, hd, rfl⟩ := mem_alter.mp he
    split
    · apply h.lt d hd
    · apply h.lt d hd
  load_eq := by
    rw [load, List.filter_eq_self]
    intro e he
    obtain ⟨d, hd, rfl⟩ := mem_alter.mp he
    have hnamed := named_of_mem h.load_eq hd
    split
    · apply hf _ hnamed
    · apply hnamed

/-- Two changes of one profile are one. -/
theorem change_change {g : ConnectionProfile α → ConnectionProfile α} :
  (profiles.change id g).change id f = profiles.change id (f ∘ g)
  := alter_alter (fun _ => rfl)

/-- A profile is replaced at its index. -/
theorem set_eq_change (h : Tidy n profiles) {i : Nat} (hi : i < profiles.length) :
  profiles.set i { profiles[i] with profile := f profiles[i].profile }
    = profiles.change profiles[i].id f
  := set_eq_alter h.nodup hi (fun e => { e with profile := f e.profile })

theorem eraseIdx_eq_drop (h : Tidy n profiles) {i : Nat} (hi : i < profiles.length) :
  profiles.eraseIdx i = profiles.drop profiles[i].id
  := eraseIdx_eq_filter h.nodup hi

/-- Copies that are the same after a change are the same but for what is changed, and the other
way round, when the change overwrites it. -/
theorem change_eq_change_iff {other : Profiles α} {g : ConnectionProfile α → ConnectionProfile α}
    (hfg : f ∘ g = f) (hgf : g ∘ f = g) :
  profiles.change id f = other.change id f ↔ profiles.change id g = other.change id g
  := by
  constructor
  · intro h
    have hg := congrArg (Profiles.change id g) h
    rwa [change_change, change_change, hgf] at hg
  · intro h
    have hf := congrArg (Profiles.change id f) h
    rwa [change_change, change_change, hfg] at hf

end Profiles

namespace PendingSave

/-- The worker sets the key of the profile of the device. -/
theorem updated_eq {n : Nat} {q : PendingSave α} (h : Profiles.Tidy n q.profiles) :
  q.updated = q.profiles.change q.target (ConnectionProfile.withKey q.linkKey q.linkKeyType)
  := Profiles.set_eq_change h q.index.isLt

end PendingSave

namespace ProfileStore

/-- All copies of the file are tidy. -/
structure Sound (s : ProfileStore α) : Prop where
  file : Profiles.Tidy s.nextId s.file.load
  window : Profiles.Tidy s.nextId s.window
  pending : ∀ q, s.pending = some q → Profiles.Tidy s.nextId q.profiles

theorem sound_start (profiles : List (ConnectionProfile α)) :
  (start profiles).Sound
  := by
  have hids : (start profiles).file.map StoredProfile.id = List.range profiles.length := by
    apply List.ext_getElem
    · simp [start]
    · intro i _ _
      simp [start]
  have htidy : Profiles.Tidy profiles.length (start profiles).file.load := by
    constructor
    · apply List.Nodup.sublist (List.filter_sublist.map _)
      rw [hids]
      apply List.nodup_range
    · intro e he
      rw [← List.mem_range, ← hids]
      apply List.mem_map_of_mem (List.mem_of_mem_filter he)
    · apply Profiles.load_load
  exact ⟨htidy, htidy, nofun⟩

variable {s t : ProfileStore α}

theorem lossless_start (profiles : List (ConnectionProfile α)) :
  (start profiles).Lossless
  := rfl

/-- What the worker has loaded is the file. -/
theorem profiles_of_persistLinkKey [DecidableEq α] {profiles : Profiles α} {address linkKey : List α}
    {linkKeyType : Int32} {q : PendingSave α}
    (h : persistLinkKey profiles address linkKey linkKeyType = some q) :
  q.profiles = profiles
  := by
  rw [persistLinkKey] at h
  split at h
  · obtain ⟨-, h⟩ := Option.ite_none_left_eq_some.mp h
    obtain rfl := Option.some.inj h
    rfl
  · contradiction

/-! ### The steps -/

/-- What each step does, and from where it is taken. -/
inductive Steps [DecidableEq α] (s : ProfileStore α) : StoreAction α → ProfileStore α → Prop
  | add {p : ConnectionProfile α} (hp : p.fromDialog = true) :
      Steps s (.add p) { s.saveWindow (s.window ++ [{ id := s.nextId, profile := p }])
          (s.ideal ++ [{ id := s.nextId, profile := p }]) with
        nextId := s.nextId + 1 }
  | update {i : Nat} {p : ConnectionProfile α} (hp : p.fromDialog = true)
      (hi : i < s.window.length) :
      Steps s (.update i p)
        (s.saveWindow (s.window.set i { s.window[i] with profile := p })
          (s.ideal.change s.window[i].id p.withKeyOf))
  | updateNone {i : Nat} {p : ConnectionProfile α} (hi : s.window.length ≤ i) :
      Steps s (.update i p) s
  | remove {i : Nat} (hi : i < s.window.length) :
      Steps s (.remove i)
        (s.saveWindow (s.window.eraseIdx i) (s.ideal.drop s.window[i].id))
  | removeNone {i : Nat} (hi : s.window.length ≤ i) : Steps s (.remove i) s
  | persistLoad {address linkKey : List α} {linkKeyType : Int32} :
      Steps s (.persistLoad address linkKey linkKeyType)
        { s with pending := persistLinkKey s.file.load address linkKey linkKeyType }
  | persistSave {q : PendingSave α} (hq : s.pending = some q) :
      Steps s .persistSave { s with
        file := q.updated
        pending := none
        ideal := s.ideal.change q.target (ConnectionProfile.withKey q.linkKey q.linkKeyType) }
  | restart : Steps s .restart { s with window := s.file.load, pending := none }

/-- Every step is one of these. -/
theorem steps_next [DecidableEq α] {a : StoreAction α} (h : s.next a = some t) :
  s.Steps a t
  := by
  cases a with
  | add p =>
      obtain ⟨hp, h⟩ := Option.ite_none_right_eq_some.mp h
      obtain rfl := Option.some.inj h
      apply Steps.add hp
  | update i p =>
      obtain ⟨hp, h⟩ := Option.ite_none_right_eq_some.mp h
      rcases Nat.lt_or_ge i s.window.length with hi | hi
      · rw [List.getElem?_eq_getElem hi] at h
        obtain rfl := Option.some.inj h
        apply Steps.update hp hi
      · rw [List.getElem?_eq_none hi] at h
        obtain rfl := Option.some.inj h
        apply Steps.updateNone hi
  | remove i =>
      rw [next] at h
      rcases Nat.lt_or_ge i s.window.length with hi | hi
      · rw [List.getElem?_eq_getElem hi] at h
        obtain rfl := Option.some.inj h
        apply Steps.remove hi
      · rw [List.getElem?_eq_none hi] at h
        obtain rfl := Option.some.inj h
        apply Steps.removeNone hi
  | persistLoad address linkKey linkKeyType =>
      obtain ⟨-, h⟩ := Option.ite_none_left_eq_some.mp h
      obtain rfl := Option.some.inj h
      apply Steps.persistLoad
  | persistSave =>
      rw [next] at h
      cases hq : s.pending with
      | none =>
          rw [hq] at h
          contradiction
      | some q =>
          rw [hq] at h
          obtain rfl := Option.some.inj h
          apply Steps.persistSave hq
  | restart =>
      obtain rfl := Option.some.inj h
      apply Steps.restart

theorem named_of_fromDialog {p : ConnectionProfile α} (h : p.fromDialog = true) :
  p.named = true ∧ p.linkKey = []
  := by
  simp only [ConnectionProfile.fromDialog, Bool.and_eq_true, decide_eq_true_eq] at h
  exact h.1

/-- The window saves tidy profiles. -/
theorem Sound.saveWindow (hs : s.Sound) {profiles ideal : Profiles α}
    (hprofiles : Profiles.Tidy s.nextId profiles) :
  (s.saveWindow profiles ideal).Sound
  where
  file := by
    rw [ProfileStore.saveWindow, hprofiles.load_eq]
    apply hprofiles
  window := hprofiles
  pending := hs.pending

/-- The copies stay tidy. -/
theorem sound_next [DecidableEq α] {a : StoreAction α} (hs : s.Sound) (h : s.next a = some t) :
  t.Sound
  := by
  cases steps_next h with
  | add hp =>
      have htidy := hs.window.append (named_of_fromDialog hp).1
      constructor
      · rw [ProfileStore.saveWindow, htidy.load_eq]
        apply htidy
      · apply htidy
      · intro q hq
        apply (hs.pending q hq).mono
  | @update i p hp hi =>
      apply hs.saveWindow
      have hset := Profiles.set_eq_change (f := fun _ => p) hs.window hi
      rw [hset]
      apply hs.window.change
      intro _ _
      apply (named_of_fromDialog hp).1
  | updateNone | removeNone => apply hs
  | remove hi =>
      apply hs.saveWindow
      apply hs.window.sublist (List.eraseIdx_sublist _ _)
  | persistLoad =>
      constructor
      · apply hs.file
      · apply hs.window
      · intro q hq
        rw [profiles_of_persistLinkKey hq]
        apply hs.file
  | @persistSave q hq =>
      have htidy : Profiles.Tidy s.nextId q.updated := by
        rw [PendingSave.updated_eq (hs.pending q hq)]
        apply (hs.pending q hq).change
        intro p hp
        apply hp
      constructor
      · rw [htidy.load_eq]
        apply htidy
      · apply hs.window
      · nofun
  | restart => exact ⟨hs.file, hs.file, nofun⟩

/-- An edited profile loses no key exactly when there is none to lose. -/
theorem change_withKeyOf_iff {p : ConnectionProfile α} (hp : p.linkKey = []) {id : Nat}
    (window file : Profiles α) :
  window.change id (fun _ => p) = file.change id p.withKeyOf
    ↔ window.change id (fun _ => {}) = file.change id (fun _ => {})
      ∧ ∀ d ∈ file, d.id = id → d.profile.linkKey = []
  := by
  constructor
  · intro h
    constructor
    · have hblank := congrArg (Profiles.change id (fun _ => {})) h
      rwa [Profiles.change_change, Profiles.change_change] at hblank
    · intro d hd hid
      have hmem : { d with profile := p.withKeyOf d.profile } ∈ window.change id (fun _ => p) := by
        rw [h]
        apply mem_alter.mpr
        use d, hd
        rw [if_pos hid]
      obtain ⟨e, -, he⟩ := mem_alter.mp hmem
      have hprofile : p = p.withKeyOf d.profile := by
        split at he
        next => apply congrArg StoredProfile.profile he
        next hne =>
          apply absurd hid
          rw [he] at hne
          apply hne
      by_contra hkey
      rw [ConnectionProfile.withKeyOf, if_neg hkey] at hprofile
      apply hkey
      rw [hprofile] at hp
      apply hp
  · rintro ⟨hothers, hkey⟩
    have hnone : file.change id p.withKeyOf = file.change id (fun _ => p) := by
      apply alter_congr
      intro d hd hid
      simp only [ConnectionProfile.withKeyOf, hkey d hd hid, if_true]
    rw [hnone]
    apply (Profiles.change_eq_change_iff _ _).mpr hothers
    · rfl
    · rfl

/-- A step from a store that has lost nothing loses something exactly when what it writes back is
not current. -/
theorem lossless_next_iff [DecidableEq α] {a : StoreAction α} (hs : s.Sound) (hlossless : s.Lossless)
    (h : s.next a = some t) :
  t.Lossless ↔ s.Current a
  := by
  have hfile : s.file.load = s.ideal := hlossless
  rw [Lossless]
  cases steps_next h with
  | add hp =>
      have htidy := hs.window.append (named_of_fromDialog hp).1
      rw [Current, hfile]
      dsimp only [ProfileStore.saveWindow]
      rw [htidy.load_eq, List.append_left_inj]
  | @update i p hp hi =>
      obtain ⟨hnamed, hkey⟩ := named_of_fromDialog hp
      have hset := Profiles.set_eq_change (f := fun _ => p) hs.window hi
      have htidy : Profiles.Tidy s.nextId (s.window.change s.window[i].id (fun _ => p)) :=
        hs.window.change (fun _ _ => hnamed)
      dsimp only [ProfileStore.saveWindow]
      rw [hset, htidy.load_eq, ← hfile, change_withKeyOf_iff hkey, Current,
        List.getElem?_eq_getElem hi]
      simp only [Option.mem_some_iff, forall_eq']
  | updateNone hi =>
      rw [Current, List.getElem?_eq_none hi]
      exact ⟨fun _ => nofun, fun _ => hlossless⟩
  | @remove i hi =>
      have htidy := hs.window.sublist (List.eraseIdx_sublist s.window i)
      dsimp only [ProfileStore.saveWindow]
      rw [htidy.load_eq, ← hfile, Profiles.eraseIdx_eq_drop hs.window hi, Current,
        List.getElem?_eq_getElem hi]
      simp only [Option.mem_some_iff, forall_eq']
  | removeNone hi =>
      rw [Current, List.getElem?_eq_none hi]
      exact ⟨fun _ => nofun, fun _ => hlossless⟩
  | persistLoad => exact ⟨fun _ => trivial, fun _ => hlossless⟩
  | @persistSave q hq =>
      have hpending := hs.pending q hq
      have htidy : Profiles.Tidy s.nextId
          (q.profiles.change q.target (ConnectionProfile.withKey q.linkKey q.linkKeyType)) :=
        hpending.change (fun _ hp => hp)
      dsimp only
      rw [PendingSave.updated_eq hpending, htidy.load_eq, ← hfile, Current, hq]
      simp only [Option.mem_some_iff, forall_eq']
      apply Profiles.change_eq_change_iff
      · rfl
      · rfl
  | restart => exact ⟨fun _ => trivial, fun _ => hlossless⟩

/-! ### Runs -/

/-- In every state of a run the file holds what the operations so far come to exactly when every
copy that is written back is current: no key was saved since the window loaded its copy that
the operation of the window does not take away with its profile, no edited profile has a key,
and the window saved nothing between the load and the save of the worker. -/
theorem lossless_iff [DecidableEq α] (profiles : List (ConnectionProfile α))
    {as : List (StoreAction α)} (h : Run next always (start profiles) as t) :
  (∀ u, Passes next (start profiles) as u → u.Lossless) ↔ Run next Current (start profiles) as t
  := by
  apply passes_iff (I := fun s => s.Sound ∧ s.Lossless) h
  · exact ⟨sound_start profiles, lossless_start profiles⟩
  · intro s hs
    apply hs.2
  · rintro s a t ⟨hs, hlossless⟩ hcurrent hstep
    constructor
    · apply sound_next hs hstep
    · apply (lossless_next_iff hs hlossless hstep).mpr hcurrent
  · rintro s a t ⟨hs, hlossless⟩ hcurrent hstep
    rw [lossless_next_iff hs hlossless hstep]
    apply hcurrent

/-- A profile of a headset. -/
def headset : ConnectionProfile Char :=
  { name := "Buds SSC".toList, deviceAddress := "01:02:03:04:05:06".toList }

/-- A link key as it is stored in a profile. -/
def headsetKey : List Char := List.replicate 32 'a'

/-- The window adds its profile before the worker saves the key of the device, and is started
again before it adds the next. -/
def addAndRestart : List (StoreAction Char) :=
  [.add headset, .persistLoad headset.deviceAddress headsetKey 4, .persistSave, .restart,
    .add headset]

/-- Nothing is lost then. -/
theorem lossless_restart :
  ∃ t, Run next Current (start []) addAndRestart t
    ∧ ∀ u, Passes next (start []) addAndRestart u → u.Lossless
  := by
  have hrun : Run next Current (start []) addAndRestart _ := run_of_exec_guarded rfl
  refine ⟨_, hrun, ?_⟩
  apply (lossless_iff [] hrun.toAlways).mpr hrun

/-- The window adds a profile behind the worker's save, and the key is lost. -/
theorem not_lossless_add :
  ¬ ∀ as t, Run next always (start [headset]) as t →
    ∀ u, Passes next (start [headset]) as u → u.Lossless
  := by
  intro h
  have hrun : Run next always (start [headset])
      [.persistLoad headset.deviceAddress headsetKey 4, .persistSave, .add headset] _ :=
    run_of_exec rfl
  have hlossless := h _ _ hrun _ ⟨_, List.prefix_rfl, hrun⟩
  revert hlossless
  decide

end ProfileStore

end Ssc
