import SscOnWindows.Encoder.Backend
import SscOnWindows.Lib.RefCount

/-!
# The Winsock references of the daemon backend

Starting the daemon calls `WSAStartup`, for `init` and for `recover`; `shutdown`, and with it the
destructor, calls `WSACleanup`.  The calls of a backend are made in a world that records them, and
the record is held against the law of a counted reference: `WSAStartup` acquires one when it
succeeds, `WSACleanup` releases one, and every call of a socket uses one.
-/

namespace Ssc

open ByteStream RefCount Machine

/-- `kCmdShutdown`. -/
def kCmdShutdown : Nat := 0x44434853

/-- The calls `shutdown` makes as well. -/
structure Winsock (σ : Type*) extends Net σ where
  stopNativeDaemon : σ → σ
  wsaCleanup : σ → σ

/-- A call of the backend, before the destructor. -/
inductive BackendCall where
  | init (sampleRate channels bitrateBps : Nat)
  | encode (pcm : Option (List UInt8)) (frames channels outCap : Nat)
  | recover
  | shutdown

/-- A world that records what the calls do to the reference. -/
def recording {σ : Type*} (net : Winsock σ) : Winsock (σ × List Event) where
  wsaStartup w :=
    let answer := net.wsaStartup w.1
    (answer.1, answer.2, if answer.1 then w.2 ++ [.acquire] else w.2)
  startNativeDaemon w sampleRate channels bitrateBps :=
    let answer := net.startNativeDaemon w.1 sampleRate channels bitrateBps
    (answer.1, answer.2, w.2)
  startWslDaemon w sampleRate channels bitrateBps :=
    (net.startWslDaemon w.1 sampleRate channels bitrateBps, w.2)
  hostIp w :=
    let answer := net.hostIp w.1
    (answer.1, answer.2, w.2)
  socket w :=
    let answer := net.socket w.1
    (answer.1, answer.2, w.2 ++ [.use])
  inetPton := net.inetPton
  connect w sock :=
    let answer := net.connect w.1 sock
    (answer.1, answer.2, w.2 ++ [.use])
  closesocket w sock := (net.closesocket w.1 sock, w.2 ++ [.use])
  send w sock bytes :=
    let answer := net.send w.1 sock bytes
    (answer.1, answer.2, w.2 ++ [.use])
  recv w sock need :=
    let answer := net.recv w.1 sock need
    (answer.1, answer.2, w.2 ++ [.use])
  stopNativeDaemon w := (net.stopNativeDaemon w.1, w.2)
  wsaCleanup w := (net.wsaCleanup w.1, w.2 ++ [.release])

namespace DaemonSscBackend

variable {σ : Type*}

/-- `request_shutdown`. -/
def requestShutdown (net : Winsock σ) (b : DaemonSscBackend) (w : σ) : σ :=
  match b.sock with
  | none => w
  | some s => if b.connected then (net.send w s (le32 kCmdShutdown)).2 else w

/-- `shutdown`, which is also what the destructor does. -/
def shutdown (net : Winsock σ) (b : DaemonSscBackend) (w : σ) : DaemonSscBackend × σ :=
  let w := b.closeSocket net.toNet (b.requestShutdown net w)
  ({ b with connected := false, sock := none }, net.wsaCleanup (net.stopNativeDaemon w))

/-- The backend and the world behind a call. -/
def called (net : Winsock σ) (b : DaemonSscBackend) (w : σ) : BackendCall → DaemonSscBackend × σ
  | .init sampleRate channels bitrateBps =>
      let started := b.init net.toNet w sampleRate channels bitrateBps
      (started.backend, started.world)
  | .encode pcm frames channels outCap =>
      (b, (b.encode net.toNet pcm frames channels outCap w).world)
  | .recover =>
      let started := b.recover net.toNet w
      (started.backend, started.world)
  | .shutdown => b.shutdown net w

/-- The backend and the world behind a list of calls. -/
def calledAll (net : Winsock σ) (b : DaemonSscBackend) (w : σ) (calls : List BackendCall) :
    DaemonSscBackend × σ :=
  calls.foldl (fun s call => called net s.1 s.2 call) (b, w)

/-- The record of a backend that is made, called and destroyed. -/
def winsockEvents (net : Winsock σ) (native : Bool) (w : σ) (calls : List BackendCall) :
    List Event :=
  let s := calledAll (recording net) { native := native } (w, []) calls
  (s.1.shutdown (recording net) s.2).2.2

/-- The `WSAStartup` of the call succeeds. -/
def startsUp (net : Winsock σ) (b : DaemonSscBackend) (w : σ) : BackendCall → Bool
  | .init _ _ _ => (net.wsaStartup w).1
  | .recover => (net.wsaStartup (b.closeSocket net.toNet w)).1
  | .encode _ _ _ _ => false
  | .shutdown => false

/-- The calls of `init` and `recover` that start Winsock up and are not followed by a `shutdown` of
their own yet, behind one more call. -/
def pending (net : Winsock σ) (b : DaemonSscBackend) (w : σ) (count : Nat) :
    BackendCall → Option Nat
  | .shutdown => if 0 < count then some (count - 1) else none
  | call => some (if b.startsUp net w call then count + 1 else count)

theorem pending_shutdown (net : Winsock σ) (b : DaemonSscBackend) (w : σ) (count : Nat) :
  b.pending net w (count + 1) .shutdown = some count
  := rfl

/-- One `shutdown` of the list goes with each call before it that starts Winsock up, and one such
call is left for the destructor. -/
def Paired (net : Winsock σ) : DaemonSscBackend → σ → Nat → List BackendCall → Prop
  | _, _, count, [] => count = 1
  | b, w, count, call :: calls =>
      ∃ count', b.pending net w count call = some count'
        ∧ Paired net (called net b w call).1 (called net b w call).2 count' calls

/-! ### The record of the parts -/

/-- What has been recorded since are uses. -/
def Used (events : List Event) (w : σ × List Event) : Prop :=
  ∃ count, w.2 = events ++ List.replicate count .use

section Record

variable {net : Winsock σ} {b : DaemonSscBackend} {w : σ × List Event} {events : List Event}

theorem used_self : Used w.2 w := ⟨0, (List.append_nil _).symm⟩

theorem Used.snoc (h : Used events w) (w' : σ) :
  Used events (w', w.2 ++ [.use])
  := by
  obtain ⟨count, hcount⟩ := h
  use count + 1
  rw [hcount, List.append_assoc, ← List.replicate_succ']

theorem Used.exec {held held' : Nat} (h : Used events w) (hpos : 0 < held')
    (hevents : exec next held events = some held') :
  exec next held w.2 = some held'
  := by
  obtain ⟨count, hcount⟩ := h
  rw [hcount, exec_append, hevents, Option.bind_some, exec_replicate_use hpos]

theorem used_closeSocket (h : Used events w) :
  Used events (b.closeSocket (recording net).toNet w)
  := by
  rw [closeSocket]
  split
  · apply h
  · apply h.snoc

theorem used_connectLoop {ip : String} {attempts : Nat} (h : Used events w) :
  Used events (connectLoop (recording net).toNet ip attempts b w).world
  := by
  apply connectLoop_preserves (I := Used events)
  · intro w h
    apply h.snoc
  · intro w sock h
    apply h.snoc
  · intro w sock h
    apply h.snoc
  · apply h

theorem used_readFull {need sock : Nat} (h : Used events w) :
  Used events (readFull (fun w need => (recording net).recv w sock need) need w).world
  := by
  apply readFull_preserves (I := Used events)
  · intro w need h
    apply h.snoc
  · apply h

theorem used_exchange {sock frames expectBytes outCap : Nat} {pcm : List UInt8}
    (h : Used events w) :
  Used events (exchange (recording net).toNet sock frames expectBytes outCap pcm w).world
  := by
  have hheader := h.snoc (net.send w.1 sock (le32 frames)).2
  rw [exchange]
  split
  · apply hheader
  · dsimp only
    split
    · apply hheader.snoc
    · rw [receiveResult]
      split
      · apply used_readFull (hheader.snoc _)
      · rw [receivePayload]
        split
        · apply used_readFull (hheader.snoc _)
        · split
          · apply used_readFull (hheader.snoc _)
          · apply used_readFull (used_readFull (hheader.snoc _))

/-- A frame makes calls only on a socket there is. -/
theorem used_encode (net : Winsock σ) (b : DaemonSscBackend) (w : σ × List Event)
    (pcm : Option (List UInt8)) (frames channels outCap : Nat) :
  (b.encode (recording net).toNet pcm frames channels outCap w).world = w
    ∨ b.sock.isSome ∧ Used w.2 (b.encode (recording net).toNet pcm frames channels outCap w).world
  := by
  rw [encode.eq_def]
  split
  next s pcm hsock =>
    split
    · left
      rfl
    · split
      · left
        rfl
      · right
        rw [hsock]
        use rfl
        apply used_exchange used_self
  next =>
    left
    rfl

/-- A failed `WSAStartup` ends the start of the daemon; behind any other there are uses only. -/
theorem startDaemon_recorded (net : Winsock σ) (b : DaemonSscBackend) (w : σ × List Event) :
  (((recording net).wsaStartup w).1 = false
      ∧ (b.startDaemon (recording net).toNet w).world.2 = w.2
      ∧ (b.startDaemon (recording net).toNet w).backend = b)
    ∨ (((recording net).wsaStartup w).1 = true
      ∧ Used (w.2 ++ [.acquire]) (b.startDaemon (recording net).toNet w).world)
  := by
  rw [startDaemon]
  dsimp only
  rcases Bool.eq_false_or_eq_true ((recording net).wsaStartup w).1 with hok | hok
  · right
    use hok
    rw [if_neg (by simp [hok])]
    have hstart : Used (w.2 ++ [.acquire]) ((recording net).wsaStartup w).2 := by
      use 0
      rw [List.replicate_zero, List.append_nil]
      apply if_pos hok
    have hclosed := @used_closeSocket _ net b _ _ hstart
    split
    · split
      · apply hclosed
      · apply used_connectLoop
        apply hclosed
    · split
      · apply hclosed
      · apply used_connectLoop
        apply hclosed
  · left
    use hok
    rw [if_pos hok]
    constructor
    · apply if_neg
      apply Bool.eq_false_iff.mp hok
    · rfl

theorem used_requestShutdown (h : Used events w) :
  Used events (b.requestShutdown (recording net) w)
  := by
  rw [requestShutdown]
  split
  · apply h
  · split
    · apply h.snoc
    · apply h

/-- Before `shutdown` releases a reference it uses the socket, if there is one. -/
theorem shutdown_recorded (net : Winsock σ) (b : DaemonSscBackend) (w : σ × List Event) :
  ∃ w' : σ × List Event, (b.shutdown (recording net) w).2.2 = w'.2 ++ [.release]
    ∧ Used w.2 w' ∧ (b.sock = none → w'.2 = w.2)
  := by
  use b.closeSocket (recording net).toNet (b.requestShutdown (recording net) w), rfl,
    used_closeSocket (used_requestShutdown used_self)
  intro hsock
  rw [closeSocket, hsock, requestShutdown, hsock]

theorem Used.isPrefix (h : Used events w) :
  events <+: w.2
  := by
  obtain ⟨count, hcount⟩ := h
  rw [hcount]
  apply List.prefix_append

theorem startDaemon_isPrefix :
  w.2 <+: (b.startDaemon (recording net).toNet w).world.2
  := by
  rcases startDaemon_recorded net b w with ⟨-, hsame, -⟩ | ⟨-, hused⟩
  · rw [hsame]
  · apply (List.prefix_append _ _).trans hused.isPrefix

/-- What has been recorded stays. -/
theorem called_isPrefix (call : BackendCall) :
  w.2 <+: (called (recording net) b w call).2.2
  := by
  cases call with
  | init sampleRate channels bitrateBps => apply startDaemon_isPrefix
  | encode pcm frames channels outCap =>
      rcases used_encode net b w pcm frames channels outCap with hsame | ⟨-, hused⟩
      · rw [called, hsame]
      · apply hused.isPrefix
  | recover =>
      apply (used_closeSocket used_self).isPrefix.trans
      apply startDaemon_isPrefix
  | shutdown =>
      obtain ⟨w', hw', hused, -⟩ := shutdown_recorded net b w
      rw [called, hw']
      apply hused.isPrefix.trans (List.prefix_append _ _)

end Record

/-- The record has been in balance so far and holds `count` references, and there is a socket only
with one of them. -/
structure Holding (b : DaemonSscBackend) (w : σ × List Event) (count : Nat) : Prop where
  held : exec next 0 w.2 = some count
  sock : b.sock.isSome → 0 < count

section Balance

variable {net : Winsock σ} {b : DaemonSscBackend} {w : σ × List Event} {count count' : Nat}

/-- Uses of the socket keep the balance. -/
theorem Holding.used {w' : σ × List Event} (h : Holding b w count) (hused : Used w.2 w')
    (hsock : b.sock = none → w'.2 = w.2) :
  exec next 0 w'.2 = some count
  := by
  cases hb : b.sock with
  | none =>
      rw [hsock hb]
      apply h.held
  | some sock =>
      apply hused.exec _ h.held
      apply h.sock
      rw [hb]
      rfl

/-- Starting the daemon keeps the balance. -/
theorem Holding.startDaemon (h : Holding b w count) :
  Holding (b.startDaemon (recording net).toNet w).backend
    (b.startDaemon (recording net).toNet w).world
    (if ((recording net).wsaStartup w).1 then count + 1 else count)
  := by
  rcases startDaemon_recorded net b w with ⟨hok, hsame, hbackend⟩ | ⟨hok, hused⟩
  · rw [hok, if_neg Bool.false_ne_true, hbackend]
    constructor
    · rw [hsame]
      apply h.held
    · apply h.sock
  · rw [hok, if_pos rfl]
    constructor
    · apply hused.exec (Nat.succ_pos count)
      rw [exec_append, h.held, Option.bind_some, exec_singleton, next]
    · intro _
      apply Nat.succ_pos count

/-- A call that is paired keeps the balance. -/
theorem Holding.called (h : Holding b w count) (call : BackendCall)
    (hpending : b.pending (recording net) w count call = some count') :
  Holding (called (recording net) b w call).1 (called (recording net) b w call).2 count'
  := by
  cases call with
  | init sampleRate channels bitrateBps =>
      obtain rfl := Option.some.inj hpending
      apply Holding.startDaemon
      constructor
      · apply h.held
      · apply h.sock
  | encode pcm frames channels outCap =>
      obtain rfl := Option.some.inj hpending
      constructor
      · rcases used_encode net b w pcm frames channels outCap with hsame | ⟨hsock, hused⟩
        · rw [DaemonSscBackend.called, hsame]
          apply h.held
        · apply hused.exec (h.sock hsock) h.held
      · apply h.sock
  | recover =>
      obtain rfl := Option.some.inj hpending
      apply Holding.startDaemon
      constructor
      · apply h.used (used_closeSocket used_self)
        intro hsock
        rw [closeSocket, hsock]
      · intro hsock
        contradiction
  | shutdown =>
      obtain ⟨w', hw', hused, hsock⟩ := shutdown_recorded net b w
      obtain ⟨hpos, hcount⟩ := Option.ite_none_right_eq_some.mp hpending
      obtain rfl := Option.some.inj hcount
      constructor
      · rw [DaemonSscBackend.called, hw', exec_append, h.used hused hsock, Option.bind_some,
          exec_singleton]
        obtain ⟨count, rfl⟩ := Nat.exists_eq_add_of_lt hpos
        rw [Nat.zero_add, next]
        rfl
      · intro hsome
        contradiction

/-- A `shutdown` that is not paired is out of balance. -/
theorem Holding.shutdown (h : Holding b w 0) :
  exec next 0 (b.shutdown (recording net) w).2.2 = none
  := by
  obtain ⟨w', hw', hused, hsock⟩ := shutdown_recorded net b w
  rw [hw', exec_append, h.used hused hsock]
  rfl

/-- What has been recorded stays, whatever is called before the end. -/
theorem calledAll_isPrefix (net : Winsock σ) (b : DaemonSscBackend) (w : σ × List Event)
    (calls : List BackendCall) :
  w.2 <+: ((calledAll (recording net) b w calls).1.shutdown (recording net)
    (calledAll (recording net) b w calls).2).2.2
  := by
  induction calls generalizing b w with
  | nil => apply called_isPrefix .shutdown
  | cons call calls ih => apply (called_isPrefix call).trans (ih _ _)

/-- The calls from here on keep the balance, up to the end, when they are paired and only then. -/
theorem Holding.calledAll (h : Holding b w count) (calls : List BackendCall) :
  exec next 0 ((calledAll (recording net) b w calls).1.shutdown (recording net)
      (calledAll (recording net) b w calls).2).2.2 = some 0
    ↔ Paired (recording net) b w count calls
  := by
  induction calls generalizing b w count with
  | nil =>
      rw [Paired, DaemonSscBackend.calledAll, List.foldl_nil]
      rcases count with - | count
      · rw [h.shutdown]
        simp
      · have hdown := h.called .shutdown (b.pending_shutdown (recording net) w count)
        rw [DaemonSscBackend.called] at hdown
        rw [hdown.held]
        simp
  | cons call calls ih =>
      rw [Paired]
      cases hpending : b.pending (recording net) w count call with
      | some count' =>
          simp only [Option.some.injEq, exists_eq_left']
          apply ih (h.called call hpending)
      | none =>
          obtain ⟨rfl, rfl⟩ : call = .shutdown ∧ count = 0 := by
            cases call with
            | shutdown =>
                use rfl
                by_contra hcount
                rw [pending, if_pos (Nat.pos_of_ne_zero hcount)] at hpending
                contradiction
            | init | encode | recover => contradiction
          obtain ⟨rest, hrest⟩ := calledAll_isPrefix net (b.shutdown (recording net) w).1
            (b.shutdown (recording net) w).2 calls
          constructor
          · intro hexec
            rw [DaemonSscBackend.calledAll, List.foldl_cons, DaemonSscBackend.called,
              ← DaemonSscBackend.calledAll, ← hrest, exec_append, h.shutdown] at hexec
            contradiction
          · rintro ⟨_, hsome, -⟩
            contradiction

/-- The calls of `WSACleanup` never outnumber the successful calls of `WSAStartup`, no socket is
called while the numbers are equal, and they are equal once the backend is destroyed, when and
only when the calls are paired. -/
theorem balanced_winsockEvents_iff (net : Winsock σ) (native : Bool) (w : σ)
    (calls : List BackendCall) :
  Balanced (winsockEvents net native w calls)
    ↔ Paired (recording net) { native := native } (w, []) 0 calls
  := by
  rw [balanced_iff, winsockEvents]
  apply Holding.calledAll
  constructor
  · rfl
  · intro hsome
    contradiction

/-- A world in which everything succeeds. -/
def willingWinsock : Winsock Unit where
  wsaStartup w := (true, w)
  startNativeDaemon w _ _ _ := (true, w)
  startWslDaemon w _ _ _ := w
  hostIp w := ("172.20.0.2", w)
  socket w := (true, w)
  inetPton _ := true
  connect w _ := (true, w)
  closesocket w _ := w
  send w _ bytes := (bytes.length, w)
  recv w _ need := (List.replicate need 0, w)
  stopNativeDaemon w := w
  wsaCleanup w := w

/-- A backend that is shut down before it is destroyed releases the reference twice. -/
theorem not_balanced_shutdown :
  ¬ Balanced (winsockEvents willingWinsock false () [.init 48000 2 229000, .shutdown])
  := by
  intro h
  have hcovered := h.covered _ List.prefix_rfl
  revert hcovered
  decide

end Balance

end DaemonSscBackend

end Ssc
