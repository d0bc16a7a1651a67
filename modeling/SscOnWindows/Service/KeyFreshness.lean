import SscOnWindows.Service.DeviceAddress
import SscOnWindows.Service.ProfileStore

/-!
# The link key of a device over its sessions

Sessions with one device, one after the other, beside the store of the profiles and the entry
of the device in the link key database.  A session copies the profile the window starts it
with, seeds the key of that copy, connects, and stores the key of the database in the file when
the connection is there and once more in its cleanup.  It may end at any point.  BTstack stores
a key in the database when the devices pair, at any time; nothing else changes the entry.
-/

namespace Ssc

open Machine

/-- A link key with its type. -/
abbrev TypedKey := LinkKey × Int32

/-- The key `seed_link_key` puts into the database, unless it refuses the text. -/
def seedLinkKey (keyHex : List Char) (type : Int) : Option TypedKey :=
  if keyHex.length = 32 then
    if h : ∀ i : Fin 16, (Scan.hexField 2 ((keyHex.drop (i * 2)).take 2)).isSome then
      some (fun i => UInt8.ofNat
          ((Scan.hexField 2 ((keyHex.drop (i * 2)).take 2)).get (h i) % 256).toNat,
        Int32.ofInt type)
    else none
  else none

/-- The text `get_link_key_hex` makes of a key. -/
def keyHex (key : LinkKey) : List Char :=
  (List.ofFn key).flatMap Scan.hexByte

/-- Where the session is: before the seed with the copy of its profile, in `connect_a2dp`,
before the first `persist_link_key`, between the two, before the second, or behind it. -/
inductive KeySession where
  | starting (activeProfile : ConnectionProfile Char)
  | connecting
  | connected
  | streaming
  | cleanup
  | leaving
  deriving DecidableEq

/-- The store of the profiles, the entry of the device in the database, and the session.  The keys
the device has paired with so far are recorded, the last one first. -/
structure KeyStores where
  store : ProfileStore Char
  db : Option TypedKey
  session : Option KeySession := none
  issued : List TypedKey := []

/-- A step of the window, the session, or BTstack. -/
inductive KeyAction where
  | window (a : StoreAction Char)
  | startStreaming (index : Nat)
  | seed
  | connect
  | pair (key : TypedKey)
  | persistLoad
  | persistSave
  | stop
  | endSession
  deriving DecidableEq

namespace KeyStores

/-- The window has loaded the profiles, and the database has the key of the last pairing, or when
there is none an entry from elsewhere or none. -/
def start (profiles : List (ConnectionProfile Char)) (db : Option TypedKey) (issued : List TypedKey) :
    KeyStores :=
  { store := .start profiles, db := issued.head?.or db, issued := issued }

/-- The entry of the database behind the seed of a session with the profile. -/
def seeded (p : ConnectionProfile Char) (db : Option TypedKey) : Option TypedKey :=
  if p.linkKey = [] then db else (seedLinkKey p.linkKey p.linkKeyType.toInt).or db

/-- `persist_link_key` up to its save, in front of the point `after`. -/
def persist (s : KeyStores) (device : List UInt8) (after : KeySession) : Option KeyStores :=
  match s.db with
  | none => some { s with session := some after }
  | some (key, type) =>
      (s.store.next (.persistLoad (formatAddress device) (keyHex key) type)).map
        fun store => { s with store := store, session := some after }

/-- One step of the sessions with the device. -/
def next (device : List UInt8) (s : KeyStores) : KeyAction → Option KeyStores
  | .window a =>
      match a with
      | .add _ | .update _ _ | .remove _ =>
          (s.store.next a).map fun store => { s with store := store }
      | .restart => (s.store.next a).map fun store => { s with store := store, session := none }
      | .persistLoad _ _ _ | .persistSave => none
  | .startStreaming index =>
      match s.session, s.store.window[index]? with
      | none, some e =>
          if parseAddress e.profile.deviceAddress = some device then
            some { s with session := some (.starting e.profile) }
          else none
      | _, _ => none
  | .seed =>
      match s.session with
      | some (.starting p) => some { s with db := seeded p s.db, session := some .connecting }
      | _ => none
  | .connect =>
      if s.session = some .connecting then some { s with session := some .connected } else none
  | .pair key => some { s with db := some key, issued := key :: s.issued }
  | .persistLoad =>
      match s.session with
      | some .connected => s.persist device .streaming
      | some .cleanup => s.persist device .leaving
      | _ => none
  | .persistSave => (s.store.next .persistSave).map fun store => { s with store := store }
  | .stop =>
      if s.session = some .streaming ∧ s.store.pending.isNone then
        some { s with session := some .cleanup }
      else none
  | .endSession =>
      some { s with store := { s.store with pending := none }, session := none }

/-- The device has paired with `key` later than with `other`, which may have come from elsewhere. -/
def Older (issued : List TypedKey) (other key : TypedKey) : Prop :=
  issued.idxOf key < issued.idxOf other

/-- A step does not seed a key over a newer one. -/
def KeepsNewer (s : KeyStores) (a : KeyAction) (t : KeyStores) : Prop :=
  a = .seed → ∀ key ∈ s.db, ∀ other ∈ t.db, ¬ Older s.issued other key

/-- A session that seeds has the key of the last pairing, if there was one. -/
def SeedsLatest (s : KeyStores) (a : KeyAction) : Prop :=
  a = .seed → s.issued = [] ∨ ∀ p, s.session = some (.starting p) → p.linkKey ≠ [] →
    ∀ key ∈ seedLinkKey p.linkKey p.linkKeyType.toInt, s.issued.head? = some key

/-- The database holds the key of the last pairing. -/
def HoldsLatest (s : KeyStores) : Prop :=
  s.issued = [] ∨ s.db = s.issued.head?

instance (s : KeyStores) (a : KeyAction) : Decidable (s.SeedsLatest a) :=
  match h : s.session with
  | some (.starting p) =>
      decidable_of_iff (a = .seed → s.issued = [] ∨ (p.linkKey ≠ [] →
          (seedLinkKey p.linkKey p.linkKeyType.toInt).all (s.issued.head? = some ·) = true)) (by
        simp [SeedsLatest, h, Option.all_eq_true])
  | none | some .connecting | some .connected | some .streaming | some .cleanup
  | some .leaving => isTrue (by simp [SeedsLatest, h])

variable {device : List UInt8} {s t : KeyStores}

/-- What `persist_link_key` leaves alone. -/
theorem persist_frame {after : KeySession} (h : s.persist device after = some t) :
  t.db = s.db ∧ t.issued = s.issued
  := by
  rw [persist] at h
  split at h
  · obtain rfl := Option.some.inj h
    exact ⟨rfl, rfl⟩
  · obtain ⟨store, -, rfl⟩ := Option.map_eq_some_iff.mp h
    exact ⟨rfl, rfl⟩

/-- Only the seed and a pairing change the database, and only a pairing issues a key. -/
theorem next_frame {a : KeyAction} (h : next device s a = some t) (hseed : a ≠ .seed)
    (hpair : ∀ key, a ≠ .pair key) :
  t.db = s.db ∧ t.issued = s.issued
  := by
  cases a with
  | window b =>
      cases b with
      | add _ | update _ _ | remove _ | restart =>
          rw [next] at h
          obtain ⟨store, -, rfl⟩ := Option.map_eq_some_iff.mp h
          exact ⟨rfl, rfl⟩
      | persistLoad _ _ _ | persistSave => contradiction
  | startStreaming index =>
      simp only [next] at h
      split at h
      · obtain ⟨-, h⟩ := Option.ite_none_right_eq_some.mp h
        obtain rfl := Option.some.inj h
        exact ⟨rfl, rfl⟩
      · contradiction
  | seed => contradiction
  | connect | stop =>
      obtain ⟨-, h⟩ := Option.ite_none_right_eq_some.mp h
      obtain rfl := Option.some.inj h
      exact ⟨rfl, rfl⟩
  | pair key => apply absurd rfl (hpair key)
  | persistLoad =>
      simp only [next] at h
      split at h
      · apply persist_frame h
      · apply persist_frame h
      · cases h
  | persistSave =>
      obtain ⟨store, -, rfl⟩ := Option.map_eq_some_iff.mp h
      exact ⟨rfl, rfl⟩
  | endSession =>
      obtain rfl := Option.some.inj h
      exact ⟨rfl, rfl⟩

/-- The seed of a session. -/
theorem seed_of_next (h : next device s .seed = some t) :
  ∃ p, s.session = some (.starting p) ∧ t.db = seeded p s.db ∧ t.issued = s.issued
  := by
  rw [next] at h
  split at h
  next p hsession =>
    obtain rfl := Option.some.inj h
    use p, hsession, rfl
  next => contradiction

/-- A key older than the last one is any other. -/
theorem older_head_iff {key other : TypedKey} (rest : List TypedKey) :
  Older (key :: rest) other key ↔ other ≠ key
  := by
  rw [Older, List.idxOf_cons_self]
  constructor
  · rintro hlt rfl
    rw [List.idxOf_cons_self] at hlt
    contradiction
  · intro hne
    rw [List.idxOf_cons_ne _ hne.symm]
    apply Nat.succ_pos

/-- While the database holds the key of the last pairing, a seed keeps it exactly when the copy
of the profile has that key too. -/
theorem keepsNewer_iff {a : KeyAction} (hs : s.HoldsLatest) (h : next device s a = some t) :
  KeepsNewer s a t ↔ s.SeedsLatest a
  := by
  rw [KeepsNewer, SeedsLatest]
  apply imp_congr_right
  rintro rfl
  obtain ⟨p, hsession, hdb, -⟩ := seed_of_next h
  rw [hdb, hsession]
  cases hissued : s.issued with
  | nil => simp [Older]
  | cons key rest =>
      have hkey : s.db = some key := by
        rw [HoldsLatest, hissued] at hs
        apply hs.resolve_left nofun
      rw [hkey]
      simp only [older_head_iff, not_not, Option.mem_some_iff, forall_eq', reduceCtorEq, false_or,
        List.head?_cons, Option.some.injEq, KeySession.starting.injEq]
      rw [seeded]
      by_cases hnone : p.linkKey = []
      · simp [hnone]
      · cases hseed : seedLinkKey p.linkKey p.linkKeyType.toInt with
        | none => simp [hnone]
        | some other =>
            simp [hnone, eq_comm]

/-- Steps that seed the key of the last pairing keep it in the database. -/
theorem holdsLatest_next {a : KeyAction} (hs : s.HoldsLatest) (hlatest : s.SeedsLatest a)
    (h : next device s a = some t) :
  t.HoldsLatest
  := by
  by_cases hseed : a = .seed
  · subst hseed
    obtain ⟨p, hsession, hdb, hissued⟩ := seed_of_next h
    rw [HoldsLatest, hdb, hissued, seeded]
    rcases hlatest rfl with hnone | hlatest
    · left
      apply hnone
    · split
      · apply hs
      next hkey =>
        cases hother : seedLinkKey p.linkKey p.linkKeyType.toInt with
        | none => apply hs
        | some other =>
            right
            rw [Option.some_or]
            apply (hlatest p hsession hkey other hother).symm
  · cases a with
    | pair key =>
        obtain rfl := Option.some.inj h
        right
        rfl
    | _ =>
        obtain ⟨hdb, hissued⟩ := next_frame h hseed nofun
        rw [HoldsLatest, hdb, hissued]
        apply hs

/-- No step of a run seeds a key over a newer one exactly when every session that seeds behind a
pairing, in the run or before it, has the key of the last one in the copy of its profile. -/
theorem keepsNewer_run_iff (device : List UInt8) (profiles : List (ConnectionProfile Char))
    (db : Option TypedKey) (issued : List TypedKey) {as : List KeyAction}
    (h : Run (next device) always (start profiles db issued) as t) :
  (∀ s a u, Takes (next device) (start profiles db issued) as s a u → KeepsNewer s a u)
    ↔ Run (next device) SeedsLatest (start profiles db issued) as t
  := by
  apply takes_iff_of_kept h (I := HoldsLatest)
  · cases issued with
    | nil =>
        left
        rfl
    | cons key rest =>
        right
        rfl
  · intro s a t hs hlatest hstep
    apply holdsLatest_next hs hlatest hstep
  · intro s a t hs hstep
    apply keepsNewer_iff hs hstep

/-- A session that pairs, and the program started again behind it: the window has loaded the key
the session stored. -/
def pairAndRestart : List KeyAction :=
  [.startStreaming 0, .seed, .connect, .pair (fun _ => 0xBB, 4), .persistLoad, .persistSave,
    .stop, .persistLoad, .endSession, .window .restart, .startStreaming 0, .seed]

/-- A headset with the key of a pairing before the run. -/
def paired : ConnectionProfile Char :=
  { ProfileStore.headset with linkKey := ProfileStore.headsetKey, linkKeyType := 4 }

/-- The stores behind that pairing. -/
def pairedBefore : KeyStores :=
  start [paired] none [(fun _ => 0xAA, 4)]

theorem keepsNewer_pairAndRestart :
  ∃ t, Run (next [1, 2, 3, 4, 5, 6]) SeedsLatest pairedBefore pairAndRestart t
    ∧ ∀ s a u, Takes (next [1, 2, 3, 4, 5, 6]) pairedBefore pairAndRestart s a u →
      KeepsNewer s a u
  := by
  obtain ⟨t, hrun⟩ : ∃ t, Run (next [1, 2, 3, 4, 5, 6]) SeedsLatest pairedBefore
      pairAndRestart t := exists_run_of_exec_guarded (by decide +kernel)
  use t, hrun
  apply (keepsNewer_run_iff _ _ _ _ hrun.toAlways).mpr hrun

/-- Without the restart the window starts the next session with its old copy, and the key of the
pairing is lost. -/
theorem not_keepsNewer_secondSession :
  ¬ ∀ as t, Run (next [1, 2, 3, 4, 5, 6]) always pairedBefore as t →
    ∀ s a u, Takes (next [1, 2, 3, 4, 5, 6]) pairedBefore as s a u → KeepsNewer s a u
  := by
  intro h
  have hrun : Run (next [1, 2, 3, 4, 5, 6]) always pairedBefore
      [.startStreaming 0, .seed, .connect, .pair (fun _ => 0xBB, 4), .persistLoad, .persistSave,
        .stop, .persistLoad, .endSession, .startStreaming 0] _ :=
    run_of_exec rfl
  have hseed := hrun.snoc (a := .seed) trivial rfl
  have hkeeps := h _ _ hseed _ _ _ ⟨_, [], rfl, hrun, rfl⟩
  have hother : seedLinkKey ProfileStore.headsetKey 4 = some (fun _ => 0xAA, 4) := by decide
  have hnot : ¬ Older [(fun _ => 0xBB, 4), (fun _ => 0xAA, 4)] (fun _ => 0xAA, 4)
      (fun _ => 0xBB, 4) := hkeeps rfl _ rfl _ hother
  rw [older_head_iff] at hnot
  apply hnot
  decide

end KeyStores

end Ssc
