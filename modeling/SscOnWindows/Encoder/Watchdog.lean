import SscOnWindows.Encoder.SscEncoder
import SscOnWindows.Lib.Machine

/-!
# The watchdog of the encoder

A call of `encode` restarts the backend when it finds it not connected.  The exchanges
leave the connection as they found it, so a socket that has failed is used again by the
next call: the watchdog is in force only along the runs in which no call on a socket falls
short.
-/

namespace Ssc

open Machine

variable {σ : Type*}

/-- `encode` has failed, and a call on the socket fell short. -/
def Reply.socketFailed (r : Reply) : Bool :=
  !r.ok && r.events.any (fun event => !event.sound)

/-- The sockets written to in a call. -/
def Reply.socketsWritten (r : Reply) : List Nat :=
  r.events.filterMap fun
    | .sent sock _ _ => some sock
    | .received _ _ => none

/-- An encoder along its calls: `lost` holds from a failure of the socket to the next
call of `recover` of the backend, and `failedSockets` are the sockets of the failures. -/
structure Watched (σ : Type*) where
  encoder : SscEncoder
  world : σ
  lost : Bool
  failedSockets : List Nat

namespace Watched

/-- The outcome of a call. -/
def encode (net : Net σ) (s : Watched σ) (call : EncodeCall) : Encoded σ :=
  s.encoder.encode net s.world call

/-- One call. -/
def next (net : Net σ) (s : Watched σ) (call : EncodeCall) : Option (Watched σ) :=
  let r := s.encode net call
  some
    { encoder := r.encoder
      world := r.world
      lost := r.reply.socketFailed || (s.lost && !r.reply.recovered)
      failedSockets :=
        if r.reply.socketFailed then s.failedSockets ++ r.reply.socketsWritten
        else s.failedSockets }

/-- An encoder before its first call. -/
def start (e : SscEncoder) (w : σ) : Watched σ where
  encoder := e
  world := w
  lost := false
  failedSockets := []

/-- A call recovers a lost backend once the cooldown is over, and does not write to a socket
that has failed. -/
structure Guarded (net : Net σ) (s : Watched σ) (call : EncodeCall) : Prop where
  recovers : s.lost = true → call.outSize = true → s.encoder.nextRecoveryMs ≤ call.now →
    (s.encode net call).reply.recovered = true
  spares : ∀ sock ∈ s.failedSockets, sock ∉ (s.encode net call).reply.socketsWritten

/-- Along the calls from `s` a backend whose socket has failed is not connected, is
recovered, and its socket is not used again. -/
def WatchdogLaw (net : Net σ) (s : Watched σ) (calls : List EncodeCall) : Prop :=
  (∀ t, Passes (next net) s calls t → t.lost = true → t.encoder.isConnected = false)
    ∧ ∀ t call u, Takes (next net) s calls t call u → t.Guarded net call

/-- No call on the socket falls short: every send takes all its bytes, and every read
delivers some. -/
def SocketSound (net : Net σ) (s : Watched σ) (call : EncodeCall) : Prop :=
  ∀ event ∈ (s.encode net call).reply.events, event.sound = true

instance (net : Net σ) (s : Watched σ) (call : EncodeCall) : Decidable (s.SocketSound net call) :=
  inferInstanceAs (Decidable (∀ event ∈ _, _))

/-- No socket has failed. -/
def Clean (s : Watched σ) : Prop :=
  s.lost = false ∧ s.failedSockets = []

theorem socketFailed_of_sound {net : Net σ} {s : Watched σ} {call : EncodeCall}
    (hsound : s.SocketSound net call) :
  (s.encode net call).reply.socketFailed = false
  := by
  rw [Reply.socketFailed, Bool.and_eq_false_iff, List.any_eq_false]
  right
  intro event hevent
  rw [hsound event hevent]
  decide

/-- A call on the socket that falls short makes the call of `encode` fail. -/
theorem socketFailed_of_not_sound {net : Net σ} {s : Watched σ} {call : EncodeCall}
    (hsound : ¬ s.SocketSound net call) :
  (s.encode net call).reply.socketFailed = true
  := by
  rw [Reply.socketFailed, Bool.and_eq_true, Bool.not_eq_true', List.any_eq_true]
  constructor
  · by_contra hok
    rw [Bool.not_eq_false] at hok
    apply hsound
    apply SscEncoder.encode_sound hok
  · simp only [SocketSound, not_forall] at hsound
    obtain ⟨event, hevent, hfell⟩ := hsound
    use event, hevent
    simpa using hfell

theorem Clean.next {net : Net σ} {s t : Watched σ} {call : EncodeCall} (h : s.Clean)
    (hsound : s.SocketSound net call) (hnext : s.next net call = some t) :
  t.Clean
  := by
  obtain rfl := Option.some.inj hnext
  have hfailed := socketFailed_of_sound hsound
  constructor
  · simp only [hfailed, h.1, Bool.false_and, Bool.or_false]
  · simp only [hfailed, h.2]
    rfl

/-- A failure of the socket leaves the backend connected. -/
theorem connected_of_not_sound {net : Net σ} {s t : Watched σ} {call : EncodeCall}
    (hsound : ¬ s.SocketSound net call) (hnext : s.next net call = some t) :
  t.lost = true ∧ t.encoder.isConnected = true
  := by
  obtain rfl := Option.some.inj hnext
  constructor
  · simp only [socketFailed_of_not_sound hsound, Bool.true_or]
  · simp only [SocketSound, not_forall] at hsound
    obtain ⟨event, hevent, -⟩ := hsound
    apply SscEncoder.encode_isConnected hevent

/-- The watchdog is in force along a run exactly when no call on a socket falls short. -/
theorem watchdogLaw_iff {net : Net σ} {e : SscEncoder} {w : σ} {calls : List EncodeCall}
    {s : Watched σ} (h : Run (next net) always (start e w) calls s) :
  WatchdogLaw net (start e w) calls ↔ Run (next net) (SocketSound net) (start e w) calls s
  := by
  have hpasses := passes_iff (I := Clean) (C := SocketSound net)
    (P := fun t => t.lost = true → t.encoder.isConnected = false) h ⟨rfl, rfl⟩
    (by
      intro t ht hlost
      rw [ht.1] at hlost
      contradiction)
    (fun _ _ _ ht hsound hnext => ht.next hsound hnext)
    (by
      intro t call u _ hsound hnext hdown
      obtain ⟨hlost, hup⟩ := connected_of_not_sound hsound hnext
      rw [hdown hlost] at hup
      contradiction)
  rw [← hpasses]
  constructor
  · intro hlaw
    apply hlaw.1
  · intro hdown
    constructor
    · apply hdown
    · rintro t call u ⟨before, after, rfl, hbefore, -⟩
      obtain ⟨t', ht', -⟩ := (hpasses.mp hdown).split
      obtain rfl := hbefore.unique ht'
      have hclean : t.Clean := ht'.invariant ⟨rfl, rfl⟩
        (fun _ _ _ ht hsound hnext => ht.next hsound hnext)
      constructor
      · intro hlost
        rw [hclean.1] at hlost
        contradiction
      · intro sock hsock
        rw [hclean.2] at hsock
        contradiction

/-- A network in which everything succeeds but the sends and the reads, which return what
the two lists say. -/
def scriptedNet : Net (List Int × List (List UInt8)) where
  wsaStartup w := (true, w)
  startNativeDaemon w _ _ _ := (true, w)
  startWslDaemon w _ _ _ := w
  hostIp w := ("172.20.0.2", w)
  socket w := (true, w)
  inetPton _ := true
  connect w _ := (true, w)
  closesocket w _ := w
  send w _ _ := (w.1.headD 0, (w.1.tail, w.2))
  recv w _ _ := (w.2.headD [], (w.1, w.2.tail))

/-- An initialised mono encoder, connected on its first socket. -/
def monoEncoder : SscEncoder where
  initialized := true
  channels := 1
  backend :=
    some { native := false, connected := true, channels := 1, sock := some 0, sockets := 1 }

/-- The send of the PCM takes 1000 of its 3456 bytes. -/
theorem shortSend_connected :
  (exec (next scriptedNet) (start monoEncoder ([4, 1000], [])) [silentFrame 6000]).map
      (fun s => (s.lost, s.encoder.isConnected))
    = some (true, true)
  := by
  rfl

/-- A failure of the socket does not disconnect the backend. -/
theorem not_watchdogLaw_shortSend :
  ¬ ∀ (σ : Type) (net : Net σ) (e : SscEncoder) (w : σ) (calls : List EncodeCall) (s : Watched σ),
    Run (next net) always (start e w) calls s → WatchdogLaw net (start e w) calls
  := by
  intro hall
  obtain ⟨s, hs, hstate⟩ := Option.map_eq_some_iff.mp shortSend_connected
  obtain ⟨hlost, hup⟩ := Prod.mk.inj hstate
  have hrun := run_of_exec hs
  have hlaw := hall _ scriptedNet monoEncoder ([4, 1000], []) [silentFrame 6000] s hrun
  have hdown := hlaw.1 s ⟨_, List.prefix_rfl, hrun⟩ hlost
  rw [hup] at hdown
  contradiction

/-- The law for two frames that are answered in time. -/
theorem watchdogLaw_answered :
  WatchdogLaw scriptedNet
    (start monoEncoder ([4, 3456, 4, 3456], [[2, 0], [0, 0], [7, 8], [1, 0, 0, 0], [9]]))
    [silentFrame 6000, silentFrame 6018]
  := by
  have hsome : (exec (guarded (next scriptedNet) (SocketSound scriptedNet))
      (start monoEncoder ([4, 3456, 4, 3456], [[2, 0], [0, 0], [7, 8], [1, 0, 0, 0], [9]]))
      [silentFrame 6000, silentFrame 6018]).isSome := by
    decide
  obtain ⟨s, hs⟩ := Option.isSome_iff_exists.mp hsome
  have hrun := run_of_exec_guarded hs
  apply (watchdogLaw_iff hrun.toAlways).mpr hrun

end Watched

end Ssc
