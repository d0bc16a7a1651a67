import Mathlib.Data.List.Basic
import Mathlib.Logic.Function.Basic

/-!
# Processes connected by byte streams

A network is a finite program for each process and a stream of bytes for each channel.  At
a point of its program a process reads a number of bytes from a channel, writes given bytes
to one, rests, or has stopped.  A read or a write takes as many calls as it likes, each of
which moves some of the bytes.

A session is described by a script for each process: the bytes it is still going to send
and to receive, in their order.  The scripts agree when the bytes in a channel and those
still going to be sent to it are the bytes that are still going to be received from it.
Every call keeps this and makes a script shorter, and as long as a script is not empty some
process has a call to make: a process that waits for a channel waits for one that is used
later than the channel its writer waits for.
-/

namespace ByteNetwork

variable {ι γ π : Type*}

/-! ### Networks -/

/-- What a process does at a point of its program.  It goes to `fail` when a call fails. -/
inductive Node (γ π : Type*) where
  | read (c : γ) (need : Nat) (resume : List UInt8 → π) (fail : π)
  | write (c : γ) (bytes : List UInt8) (resume : π) (fail : π)
  | idle
  | stopped

namespace Node

/-- The process has left its program. -/
def isStopped : Node γ π → Bool
  | stopped => true
  | _ => false

/-- The same calls between points of another program. -/
def map {π' : Type*} (f : π → π') : Node γ π → Node γ π'
  | read c need resume fail => read c need (fun bytes => f (resume bytes)) (f fail)
  | write c bytes resume fail => write c bytes (f resume) (f fail)
  | idle => idle
  | stopped => stopped

end Node

/-- A process: where it is, and the bytes it has read or written there. -/
structure Proc (π : Type*) where
  point : π
  done : List UInt8 := []

/-- The processes, and the bytes in the channels. -/
structure Network (ι γ π : Type*) where
  proc : ι → Proc π
  content : γ → List UInt8

/-- The program, the two ends of every channel, the order in which a session uses the
channels, and the processes whose writes take all their bytes and whose calls are never
interrupted. -/
structure Wiring (ι γ π : Type*) where
  node : π → Node γ π
  writer : γ → ι
  reader : γ → ι
  rank : γ → Nat
  whole : ι → Bool

/-- A step of the network: a process moves `count` bytes with a call, a call is interrupted
by a signal, or it fails since the other end of the channel is closed. -/
inductive Act (ι : Type*) where
  | io (i : ι) (count : Nat)
  | interrupt (i : ι)
  | hangup (i : ι)
  deriving DecidableEq, Repr

/-- The process after a call that has moved the bytes `chunk`. -/
def Proc.transfer (p : Proc π) (size : Nat) (chunk : List UInt8) (resume : List UInt8 → π) :
    Proc π :=
  if (p.done ++ chunk).length = size then { point := resume (p.done ++ chunk) }
  else { p with done := p.done ++ chunk }

section

variable [DecidableEq ι] [DecidableEq γ]

/-- The process `i` is `p` now, and the channel `c` has the bytes `bytes`. -/
def Network.move (net : Network ι γ π) (i : ι) (p : Proc π) (c : γ) (bytes : List UInt8) :
    Network ι γ π where
  proc := Function.update net.proc i p
  content := Function.update net.content c bytes

/-- The process `i` makes a call that moves `count` bytes.  Only a call for no bytes at all
moves none. -/
def io (w : Wiring ι γ π) (net : Network ι γ π) (i : ι) (count : Nat) :
    Option (Network ι γ π) :=
  match w.node (net.proc i).point with
  | .read c need resume _ =>
      if (0 < count ∨ need = 0) ∧ count ≤ (net.content c).length
          ∧ (net.proc i).done.length + count ≤ need then
        some (net.move i ((net.proc i).transfer need ((net.content c).take count) resume)
          c ((net.content c).drop count))
      else none
  | .write c bytes resume _ =>
      if (0 < count ∨ bytes.length = 0) ∧ (net.proc i).done.length + count ≤ bytes.length
          ∧ (w.whole i = true → (net.proc i).done.length + count = bytes.length) then
        let chunk := (bytes.drop (net.proc i).done.length).take count
        some (net.move i ((net.proc i).transfer bytes.length chunk (fun _ => resume))
          c (net.content c ++ chunk))
      else none
  | .idle => none
  | .stopped => none

/-- The point a process goes to when its call fails: it reads from an empty channel whose
writer has stopped, or writes to a channel whose reader has. -/
def failure (w : Wiring ι γ π) (net : Network ι γ π) (i : ι) : Option π :=
  match w.node (net.proc i).point with
  | .read c need _ fail =>
      if (net.proc i).done.length < need ∧ net.content c = []
          ∧ (w.node (net.proc (w.writer c)).point).isStopped = true then some fail
      else none
  | .write c _ _ fail =>
      if (w.node (net.proc (w.reader c)).point).isStopped then some fail else none
  | .idle => none
  | .stopped => none

/-- One step of the network. -/
def next (w : Wiring ι γ π) (net : Network ι γ π) : Act ι → Option (Network ι γ π)
  | .io i count => io w net i count
  | .interrupt i => if w.whole i then none else some net
  | .hangup i =>
      (failure w net i).map
        (fun fail => { net with proc := Function.update net.proc i { point := fail } })

end

/-! ### Scripts -/

/-- Bytes a process is going to send or to receive. -/
inductive Op (γ : Type*) where
  | send (c : γ) (bytes : List UInt8)
  | recv (c : γ) (bytes : List UInt8)
  deriving DecidableEq, Repr

namespace Op

def chan : Op γ → γ
  | send c _ => c
  | recv c _ => c

def bytes : Op γ → List UInt8
  | send _ bytes => bytes
  | recv _ bytes => bytes

/-- What is left of the bytes when `count` of them have been moved. -/
def drop (count : Nat) : Op γ → Op γ
  | send c bytes => send c (bytes.drop count)
  | recv c bytes => recv c (bytes.drop count)

@[simp] theorem chan_drop (count : Nat) (op : Op γ) :
  (op.drop count).chan = op.chan
  := by
  cases op <;> rfl

@[simp] theorem bytes_drop (count : Nat) (op : Op γ) :
  (op.drop count).bytes = op.bytes.drop count
  := by
  cases op <;> rfl

end Op

/-- The script after `count` bytes of its first entry have been moved. -/
def advance (count : Nat) : List (Op γ) → List (Op γ)
  | [] => []
  | op :: script => if op.bytes.length = count then script else op.drop count :: script

/-- An upper bound of the calls a script takes. -/
def size : List (Op γ) → Nat
  | [] => 0
  | op :: script => op.bytes.length + 1 + size script

/-- A call makes the script shorter. -/
theorem size_advance {count : Nat} {op : Op γ} {script : List (Op γ)}
    (hcount : 0 < count ∨ op.bytes.length = 0) (hle : count ≤ op.bytes.length) :
  size (advance count (op :: script)) < size (op :: script)
  := by
  rw [advance]
  split
  · rw [size]
    omega
  · rename_i hne
    rw [size, size, Op.bytes_drop, List.length_drop]
    omega

/-- The entries of the script are entries it had before, or what is left of one. -/
theorem mem_advance {count : Nat} {op : Op γ} {script : List (Op γ)}
    (h : op ∈ advance count script) :
  ∃ op' ∈ script, op = op' ∨ op = op'.drop count
  := by
  cases script with
  | nil => contradiction
  | cons first script =>
      rw [advance] at h
      split at h
      · use op
        constructor
        · apply List.mem_cons_of_mem _ h
        · apply Or.inl rfl
      · cases List.mem_cons.mp h with
        | inl hfirst =>
            use first
            constructor
            · apply List.mem_cons_self
            · apply Or.inr hfirst
        | inr hrest =>
            use op
            constructor
            · apply List.mem_cons_of_mem _ hrest
            · apply Or.inl rfl

/-- The script uses the channels in their order. -/
def Ordered (rank : γ → Nat) (script : List (Op γ)) : Prop :=
  script.Pairwise (fun a b => rank a.chan ≤ rank b.chan)

theorem Ordered.advance {rank : γ → Nat} {count : Nat} {script : List (Op γ)}
    (h : Ordered rank script) :
  Ordered rank (advance count script)
  := by
  cases script with
  | nil => apply h
  | cons op script =>
      obtain ⟨hfirst, hrest⟩ := List.pairwise_cons.mp h
      rw [ByteNetwork.advance]
      split
      · apply hrest
      · apply List.pairwise_cons.mpr
        rw [Op.chan_drop]
        exact ⟨hfirst, hrest⟩

/-- The last thing the script does is to send bytes to the channel `c`. -/
def EndsSending (c : γ) : List (Op γ) → Prop
  | [] => True
  | [op] => ∃ bytes, op = .send c bytes ∧ bytes ≠ []
  | _ :: op :: script => EndsSending c (op :: script)

theorem EndsSending.append_left {c : γ} {script script' : List (Op γ)} (h : EndsSending c script')
    (hne : script' ≠ []) :
  EndsSending c (script ++ script')
  := by
  induction script with
  | nil => apply h
  | cons op script ih =>
      cases hrest : script ++ script' with
      | nil =>
          rw [List.append_eq_nil_iff] at hrest
          exact absurd hrest.2 hne
      | cons op' rest =>
          rw [hrest] at ih
          rw [List.cons_append, hrest]
          apply ih

theorem EndsSending.advance {c : γ} {count : Nat} :
    ∀ {script : List (Op γ)}, (∀ op ∈ script.head?, count ≤ op.bytes.length) →
      EndsSending c script → EndsSending c (advance count script)
  | [], _, h => h
  | [op], hle, ⟨bytes, hop, hne⟩ => by
      subst hop
      rw [ByteNetwork.advance]
      split
      · trivial
      · rename_i hlength
        have hcount : count ≤ bytes.length := hle _ rfl
        use bytes.drop count
        constructor
        · rfl
        · rw [Ne, List.drop_eq_nil_iff]
          change bytes.length ≠ count at hlength
          omega
  | _ :: op :: script, _, h => by
      rw [ByteNetwork.advance]
      split
      · apply h
      · apply h

section

variable [DecidableEq γ]

/-- The bytes the script sends to a channel. -/
def sent (c : γ) : List (Op γ) → List UInt8
  | [] => []
  | .send d bytes :: script => if d = c then bytes ++ sent c script else sent c script
  | .recv _ _ :: script => sent c script

/-- The bytes the script receives from a channel. -/
def received (c : γ) : List (Op γ) → List UInt8
  | [] => []
  | .send _ _ :: script => received c script
  | .recv d bytes :: script => if d = c then bytes ++ received c script else received c script

/-- A script that ends with sending to a channel sends to it as long as it is not over. -/
theorem EndsSending.eq_nil {c : γ} :
    ∀ {script : List (Op γ)}, EndsSending c script → sent c script = [] → script = []
  | [], _, _ => rfl
  | [op], ⟨bytes, hop, hne⟩, hsent => by
      subst hop
      simp [sent, hne] at hsent
  | first :: op :: script, h, hsent => by
      have hrest : sent c (op :: script) = [] := by
        cases first with
        | send d bytes =>
            rw [sent] at hsent
            split at hsent
            · apply (List.append_eq_nil_iff.mp hsent).2
            · apply hsent
        | recv d bytes => apply hsent
      have hnil : op :: script = [] := EndsSending.eq_nil h hrest
      contradiction

/-- A script that sends something to a channel uses it. -/
theorem exists_send_of_sent_ne_nil {c : γ} {script : List (Op γ)} (h : sent c script ≠ []) :
  ∃ bytes, Op.send c bytes ∈ script
  := by
  induction script with
  | nil => contradiction
  | cons op script ih =>
      cases op with
      | send d bytes =>
          rw [sent] at h
          split at h
          · rename_i hd
            subst hd
            use bytes
            apply List.mem_cons_self
          · obtain ⟨bytes', hmem⟩ := ih h
            use bytes'
            apply List.mem_cons_of_mem _ hmem
      | recv d bytes =>
          obtain ⟨bytes', hmem⟩ := ih h
          use bytes'
          apply List.mem_cons_of_mem _ hmem

theorem sent_append {c : γ} {script script' : List (Op γ)} :
  sent c (script ++ script') = sent c script ++ sent c script'
  := by
  induction script with
  | nil => rfl
  | cons op script ih =>
      cases op with
      | send d bytes =>
          rw [List.cons_append, sent, sent, ih]
          split
          · rw [List.append_assoc]
          · rfl
      | recv d bytes => apply ih

theorem received_append {c : γ} {script script' : List (Op γ)} :
  received c (script ++ script') = received c script ++ received c script'
  := by
  induction script with
  | nil => rfl
  | cons op script ih =>
      cases op with
      | send d bytes => apply ih
      | recv d bytes =>
          rw [List.cons_append, received, received, ih]
          split
          · rw [List.append_assoc]
          · rfl

/-- A message in several parts goes to its channel, and to no other. -/
theorem sent_map_send {c d : γ} {parts : List (List UInt8)} :
  sent d (parts.map (.send c)) = if c = d then parts.flatten else []
  := by
  induction parts with
  | nil => rw [List.map_nil, sent, List.flatten_nil, ite_self]
  | cons bytes parts ih =>
      rw [List.map_cons, sent, ih, List.flatten_cons]
      split <;> rfl

theorem received_map_recv {c d : γ} {parts : List (List UInt8)} :
  received d (parts.map (.recv c)) = if c = d then parts.flatten else []
  := by
  induction parts with
  | nil => rw [List.map_nil, received, List.flatten_nil, ite_self]
  | cons bytes parts ih =>
      rw [List.map_cons, received, ih, List.flatten_cons]
      split <;> rfl

theorem sent_map_recv {c d : γ} {parts : List (List UInt8)} :
  sent d (parts.map (.recv c)) = []
  := by
  induction parts with
  | nil => rfl
  | cons bytes parts ih => apply ih

theorem received_map_send {c d : γ} {parts : List (List UInt8)} :
  received d (parts.map (.send c)) = []
  := by
  induction parts with
  | nil => rfl
  | cons bytes parts ih => apply ih

/-- Receiving does not change what is going to be sent. -/
theorem sent_advance_recv {c d : γ} {bytes : List UInt8} {count : Nat} {script : List (Op γ)} :
  sent d (advance count (.recv c bytes :: script)) = sent d (.recv c bytes :: script)
  := by
  rw [advance]
  split
  · rfl
  · rfl

theorem received_advance_recv {c d : γ} {bytes : List UInt8} {count : Nat}
    {script : List (Op γ)} (hle : count ≤ bytes.length) :
  received d (advance count (.recv c bytes :: script))
    = if c = d then (received d (.recv c bytes :: script)).drop count
      else received d (.recv c bytes :: script)
  := by
  rw [advance, received]
  split
  · rename_i hlength
    change bytes.length = count at hlength
    split
    · rw [List.drop_left' hlength]
    · rfl
  · rw [Op.drop, received]
    split
    · rw [List.drop_append_of_le_length hle]
    · rfl

/-- Sending does not change what is going to be received. -/
theorem received_advance_send {c d : γ} {bytes : List UInt8} {count : Nat}
    {script : List (Op γ)} :
  received d (advance count (.send c bytes :: script)) = received d (.send c bytes :: script)
  := by
  rw [advance]
  split
  · rfl
  · rfl

theorem sent_advance_send {c d : γ} {bytes : List UInt8} {count : Nat} {script : List (Op γ)}
    (hle : count ≤ bytes.length) :
  sent d (advance count (.send c bytes :: script))
    = if c = d then (sent d (.send c bytes :: script)).drop count
      else sent d (.send c bytes :: script)
  := by
  rw [advance, sent]
  split
  · rename_i hlength
    change bytes.length = count at hlength
    split
    · rw [List.drop_left' hlength]
    · rfl
  · rw [Op.drop, sent]
    split
    · rw [List.drop_append_of_le_length hle]
    · rfl

end

/-! ### Sessions -/

/-- The process `p` is going to do what the script says, and then to be at `goal`. -/
def Follows (node : π → Node γ π) (goal : π) : Proc π → List (Op γ) → Prop
  | p, [] => p = { point := goal }
  | p, .send c bytes :: script =>
      ∃ resume fail, node p.point = .write c (p.done ++ bytes) resume fail
        ∧ (bytes = [] → p.done = []) ∧ Follows node goal { point := resume } script
  | p, .recv c bytes :: script =>
      ∃ resume fail, node p.point = .read c (p.done ++ bytes).length resume fail
        ∧ (bytes = [] → p.done = [])
        ∧ Follows node goal { point := resume (p.done ++ bytes) } script

/-- The process `i` makes the calls of `op`. -/
def Wired (w : Wiring ι γ π) (i : ι) : Op γ → Prop
  | .send c _ => w.writer c = i
  | .recv c _ => w.reader c = i

/-- At this point the process `i` waits for a channel it reads, or for nothing. -/
def Rests (w : Wiring ι γ π) (i : ι) (goal : π) : Prop :=
  (∃ c need resume fail, w.node goal = .read c need resume fail ∧ 0 < need ∧ w.reader c = i)
    ∨ w.node goal = .idle

/-- At a point where bytes are written they come first in the script. -/
theorem follows_write {node : π → Node γ π} {goal point resume fail : π} {c : γ}
    {bytes : List UInt8} {script : List (Op γ)} (hnode : node point = .write c bytes resume fail)
    (h : Follows node goal { point := resume } script) :
  Follows node goal { point := point } (.send c bytes :: script)
  := ⟨resume, fail, hnode, fun _ => rfl, h⟩

/-- At a point where bytes are read, bytes of that number come first in the script. -/
theorem follows_read {node : π → Node γ π} {goal point fail : π} {c : γ} {need : Nat}
    {resume : List UInt8 → π} {bytes : List UInt8} {script : List (Op γ)}
    (hnode : node point = .read c need resume fail) (hneed : bytes.length = need)
    (h : Follows node goal { point := resume bytes } script) :
  Follows node goal { point := point } (.recv c bytes :: script)
  := ⟨resume, fail, by rw [hnode, ← hneed, List.nil_append], fun _ => rfl, h⟩

theorem Wired.drop {w : Wiring ι γ π} {i : ι} {count : Nat} {op : Op γ} (h : Wired w i op) :
  Wired w i (op.drop count)
  := by
  cases op <;> exact h

/-- What is left of the script is followed after a call that has written some bytes. -/
theorem Follows.write {node : π → Node γ π} {goal resume fail : π} {p : Proc π} {c : γ}
    {bytes : List UInt8} {count : Nat} {script : List (Op γ)}
    (hnode : node p.point = .write c (p.done ++ bytes) resume fail)
    (hle : count ≤ bytes.length) (h : Follows node goal { point := resume } script) :
  Follows node goal
    (p.transfer (p.done ++ bytes).length (bytes.take count) (fun _ => resume))
    (advance count (.send c bytes :: script))
  := by
  have hlength : (bytes.take count).length = count := List.length_take_of_le hle
  rw [Proc.transfer, advance, Op.bytes, List.length_append, List.length_append, hlength]
  by_cases hall : bytes.length = count
  · rw [if_pos (by omega), if_pos hall]
    apply h
  · rw [if_neg (by omega), if_neg hall]
    use resume, fail
    constructor
    · rw [List.append_assoc, List.take_append_drop]
      apply hnode
    · constructor
      · intro hnil
        rw [List.drop_eq_nil_iff] at hnil
        omega
      · apply h

theorem Follows.read {node : π → Node γ π} {goal fail : π} {p : Proc π} {c : γ}
    {resume : List UInt8 → π} {bytes : List UInt8} {count : Nat} {script : List (Op γ)}
    (hnode : node p.point = .read c (p.done ++ bytes).length resume fail)
    (hle : count ≤ bytes.length)
    (h : Follows node goal { point := resume (p.done ++ bytes) } script) :
  Follows node goal (p.transfer (p.done ++ bytes).length (bytes.take count) resume)
    (advance count (.recv c bytes :: script))
  := by
  have hlength : (bytes.take count).length = count := List.length_take_of_le hle
  rw [Proc.transfer, advance, Op.bytes, List.length_append, List.length_append, hlength]
  by_cases hall : bytes.length = count
  · rw [if_pos (by omega), if_pos hall, List.take_of_length_le (by omega)]
    apply h
  · rw [if_neg (by omega), if_neg hall]
    use resume, fail
    constructor
    · rw [List.append_assoc, List.take_append_drop]
      apply hnode
    · constructor
      · intro hnil
        rw [List.drop_eq_nil_iff] at hnil
        omega
      · rw [List.append_assoc, List.take_append_drop]
        apply h

section

variable [DecidableEq γ] {w : Wiring ι γ π} {goal : ι → π}
  {script : ι → List (Op γ)} {net : Network ι γ π}

/-- The processes follow scripts that agree. -/
structure Session (w : Wiring ι γ π) (goal : ι → π) (script : ι → List (Op γ))
    (net : Network ι γ π) : Prop where
  follows : ∀ i, Follows w.node (goal i) (net.proc i) (script i)
  rests : ∀ i, Rests w i (goal i)
  wired : ∀ i, ∀ op ∈ script i, Wired w i op
  ordered : ∀ i, Ordered w.rank (script i)
  agrees : ∀ c, net.content c ++ sent c (script (w.writer c)) = received c (script (w.reader c))

namespace Session

/-- Where a script is over, there is nothing left in the channels its process reads. -/
theorem content_eq_nil (h : Session w goal script net) {c : γ}
    (hscript : script (w.reader c) = []) :
  net.content c = [] ∧ sent c (script (w.writer c)) = []
  := by
  have hagrees := h.agrees c
  rw [hscript] at hagrees
  apply List.append_eq_nil_iff.mp hagrees

/-- A process that is going to receive bytes reads from the channel. -/
theorem reader_eq (h : Session w goal script net) {i : ι} {c : γ} {bytes : List UInt8}
    {rest : List (Op γ)} (hscript : script i = .recv c bytes :: rest) :
  w.reader c = i
  := by
  have hwired := h.wired i (.recv c bytes)
  rw [hscript] at hwired
  apply hwired List.mem_cons_self

theorem writer_eq (h : Session w goal script net) {i : ι} {c : γ} {bytes : List UInt8}
    {rest : List (Op γ)} (hscript : script i = .send c bytes :: rest) :
  w.writer c = i
  := by
  have hwired := h.wired i (.send c bytes)
  rw [hscript] at hwired
  apply hwired List.mem_cons_self

/-- The bytes at the front of a channel are those its reader is going to receive next. -/
theorem take_content (h : Session w goal script net) {i : ι} {c : γ} {bytes : List UInt8}
    {rest : List (Op γ)} (hscript : script i = .recv c bytes :: rest) {count : Nat}
    (hle : count ≤ bytes.length) (hcontent : count ≤ (net.content c).length) :
  (net.content c).take count = bytes.take count
  := by
  have hagrees := h.agrees c
  rw [h.reader_eq hscript, hscript, received, if_pos rfl] at hagrees
  rw [← List.take_append_of_le_length hcontent, hagrees, List.take_append_of_le_length hle]

/-- No process has stopped. -/
theorem not_isStopped (h : Session w goal script net) (i : ι) :
  (w.node (net.proc i).point).isStopped = false
  := by
  have hfollows := h.follows i
  cases hscript : script i with
  | nil =>
      rw [hscript, Follows] at hfollows
      rw [hfollows]
      rcases h.rests i with ⟨c, need, resume, fail, hnode, -⟩ | hidle
      · simp only [hnode, Node.isStopped]
      · simp only [hidle, Node.isStopped]
  | cons op rest =>
      rw [hscript] at hfollows
      cases op with
      | send c bytes =>
          obtain ⟨resume, fail, hnode, -⟩ := hfollows
          rw [hnode]
          rfl
      | recv c bytes =>
          obtain ⟨resume, fail, hnode, -⟩ := hfollows
          rw [hnode]
          rfl

/-- No call fails. -/
theorem failure_eq_none (h : Session w goal script net) (i : ι) :
  failure w net i = none
  := by
  rw [failure]
  split
  · rw [if_neg]
    rintro ⟨-, -, hstopped⟩
    rw [h.not_isStopped] at hstopped
    contradiction
  · rw [if_neg]
    intro hstopped
    rw [h.not_isStopped] at hstopped
    contradiction
  · rfl
  · rfl

variable [DecidableEq ι]

/-- A process whose script is over makes no call. -/
theorem io_of_nil (h : Session w goal script net) {i : ι} (hscript : script i = [])
    (count : Nat) :
  io w net i count = none
  := by
  have hfollows := h.follows i
  rw [hscript, Follows] at hfollows
  cases h.rests i with
  | inl hread =>
      obtain ⟨c, need, resume, fail, hnode, hneed, rfl⟩ := hread
      rw [io, hfollows]
      simp only [hnode]
      rw [(h.content_eq_nil hscript).1, List.length_nil, if_neg (by omega)]
  | inr hidle =>
      rw [io, hfollows]
      simp only [hidle]

/-- A session is kept by a call after which the scripts agree. -/
theorem move (h : Session w goal script net) {i : ι} {c : γ} {bytes : List UInt8} {count : Nat}
    {p : Proc π} (hp : Follows w.node (goal i) p (advance count (script i)))
    (hagrees : ∀ d, Function.update net.content c bytes d
        ++ sent d (Function.update script i (advance count (script i)) (w.writer d))
      = received d (Function.update script i (advance count (script i)) (w.reader d))) :
  Session w goal (Function.update script i (advance count (script i))) (net.move i p c bytes)
  := by
  constructor
  · intro j
    rw [Network.move]
    by_cases hj : j = i
    · subst hj
      simp only [Function.update_self]
      apply hp
    · simp only [Function.update_of_ne hj]
      apply h.follows j
  · apply h.rests
  · intro j op hop
    by_cases hj : j = i
    · subst hj
      rw [Function.update_self] at hop
      obtain ⟨op', hop', hor⟩ := mem_advance hop
      cases hor with
      | inl heq => apply heq ▸ h.wired j op' hop'
      | inr heq => apply heq ▸ (h.wired j op' hop').drop
    · rw [Function.update_of_ne hj] at hop
      apply h.wired j op hop
  · intro j
    by_cases hj : j = i
    · subst hj
      rw [Function.update_self]
      apply (h.ordered j).advance
    · rw [Function.update_of_ne hj]
      apply h.ordered j
  · apply hagrees

/-- A call that receives some of the bytes keeps the session. -/
theorem receive (h : Session w goal script net) {i : ι} {c : γ} {bytes : List UInt8}
    {rest : List (Op γ)} (hscript : script i = .recv c bytes :: rest) {count : Nat}
    (hle : count ≤ bytes.length) (hcontent : count ≤ (net.content c).length) {p : Proc π}
    (hp : Follows w.node (goal i) p (advance count (script i))) :
  Session w goal (Function.update script i (advance count (script i)))
    (net.move i p c ((net.content c).drop count))
  := by
  apply h.move hp
  intro d
  have hsent : sent d (Function.update script i (advance count (script i)) (w.writer d))
      = sent d (script (w.writer d)) := by
    by_cases hwriter : w.writer d = i
    · rw [hwriter, Function.update_self, hscript, sent_advance_recv]
    · rw [Function.update_of_ne hwriter]
  rw [hsent]
  by_cases hd : c = d
  · subst hd
    have hagrees := h.agrees c
    rw [h.reader_eq hscript] at hagrees ⊢
    rw [Function.update_self, Function.update_self, hscript, received_advance_recv hle,
      if_pos rfl, ← hscript, ← hagrees, List.drop_append_of_le_length hcontent]
  · rw [Function.update_of_ne (Ne.symm hd), h.agrees d]
    by_cases hi : w.reader d = i
    · rw [hi, Function.update_self, hscript, received_advance_recv hle, if_neg hd]
    · rw [Function.update_of_ne hi]

/-- A call that sends some of the bytes keeps the session. -/
theorem send (h : Session w goal script net) {i : ι} {c : γ} {bytes : List UInt8}
    {rest : List (Op γ)} (hscript : script i = .send c bytes :: rest) {count : Nat}
    (hle : count ≤ bytes.length) {p : Proc π}
    (hp : Follows w.node (goal i) p (advance count (script i))) :
  Session w goal (Function.update script i (advance count (script i)))
    (net.move i p c (net.content c ++ bytes.take count))
  := by
  apply h.move hp
  intro d
  have hreceived : received d (Function.update script i (advance count (script i)) (w.reader d))
      = received d (script (w.reader d)) := by
    by_cases hreader : w.reader d = i
    · rw [hreader, Function.update_self, hscript, received_advance_send]
    · rw [Function.update_of_ne hreader]
  rw [hreceived]
  by_cases hd : c = d
  · subst hd
    have hagrees := h.agrees c
    rw [h.writer_eq hscript] at hagrees ⊢
    rw [Function.update_self, Function.update_self, ← hagrees, hscript, sent_advance_send hle,
      if_pos rfl, sent, if_pos rfl, List.drop_append_of_le_length hle, List.append_assoc,
      ← List.append_assoc (bytes.take count), List.take_append_drop]
  · rw [Function.update_of_ne (Ne.symm hd), ← h.agrees d]
    by_cases hi : w.writer d = i
    · rw [hi, Function.update_self, hscript, sent_advance_send hle, if_neg hd]
    · rw [Function.update_of_ne hi]

/-- Every call keeps the session, and makes the script of the process that makes it
shorter. -/
theorem io (h : Session w goal script net) {i : ι} {count : Nat} {net' : Network ι γ π}
    (hstep : ByteNetwork.io w net i count = some net') :
  Session w goal (Function.update script i (advance count (script i))) net'
    ∧ size (advance count (script i)) < size (script i)
    ∧ ∀ op ∈ (script i).head?, count ≤ op.bytes.length
  := by
  have hfollows := h.follows i
  cases hscript : script i with
  | nil =>
      rw [h.io_of_nil hscript] at hstep
      contradiction
  | cons op rest =>
      rw [hscript] at hfollows
      cases op with
      | send c bytes =>
          obtain ⟨resume, fail, hnode, hempty, hrest⟩ := hfollows
          rw [ByteNetwork.io, hnode] at hstep
          obtain ⟨⟨hcount, hbound, -⟩, hnet⟩ := Option.ite_none_right_eq_some.mp hstep
          obtain rfl := Option.some.inj hnet
          rw [List.length_append] at hcount hbound
          have hle : count ≤ bytes.length := by omega
          constructor
          · rw [List.drop_left, ← hscript]
            apply h.send hscript hle
            rw [hscript]
            apply Follows.write hnode hle hrest
          · constructor
            · apply size_advance
              · change 0 < count ∨ bytes.length = 0
                omega
              · apply hle
            · intro op hop
              obtain rfl := Option.some.inj hop
              apply hle
      | recv c bytes =>
          obtain ⟨resume, fail, hnode, hempty, hrest⟩ := hfollows
          rw [ByteNetwork.io, hnode] at hstep
          obtain ⟨⟨hcount, hcontent, hbound⟩, hnet⟩ := Option.ite_none_right_eq_some.mp hstep
          obtain rfl := Option.some.inj hnet
          rw [List.length_append] at hcount hbound
          have hle : count ≤ bytes.length := by omega
          constructor
          · rw [h.take_content hscript hle hcontent, ← hscript]
            apply h.receive hscript hle hcontent
            rw [hscript]
            apply Follows.read hnode hle hrest
          · constructor
            · apply size_advance
              · change 0 < count ∨ bytes.length = 0
                omega
              · apply hle
            · intro op hop
              obtain rfl := Option.some.inj hop
              apply hle

/-- A process that is going to send can make a call. -/
theorem exists_io_of_send (h : Session w goal script net) {i : ι} {c : γ} {bytes : List UInt8}
    {rest : List (Op γ)} (hscript : script i = .send c bytes :: rest) :
  ∃ count net', ByteNetwork.io w net i count = some net'
  := by
  have hfollows := h.follows i
  rw [hscript] at hfollows
  obtain ⟨resume, fail, hnode, hempty, -⟩ := hfollows
  use bytes.length
  rw [ByteNetwork.io, hnode]
  dsimp only
  rw [List.length_append, if_pos]
  · exact ⟨_, rfl⟩
  · cases bytes with
    | nil => simp [hempty rfl]
    | cons b bytes => simp

/-- A process that is going to receive can make a call, or waits for bytes that are going to
be sent. -/
theorem exists_io_of_recv (h : Session w goal script net) {i : ι} {c : γ} {bytes : List UInt8}
    {rest : List (Op γ)} (hscript : script i = .recv c bytes :: rest) :
  (∃ count net', ByteNetwork.io w net i count = some net')
    ∨ ∃ bytes', Op.send c bytes' ∈ script (w.writer c)
  := by
  have hfollows := h.follows i
  rw [hscript] at hfollows
  obtain ⟨resume, fail, hnode, hempty, -⟩ := hfollows
  cases bytes with
  | nil =>
      left
      use 0
      rw [ByteNetwork.io, hnode]
      dsimp only
      rw [List.length_append, if_pos]
      · exact ⟨_, rfl⟩
      · simp [hempty rfl]
  | cons b bytes =>
      cases hcontent : net.content c with
      | nil =>
          right
          apply exists_send_of_sent_ne_nil
          have hagrees := h.agrees c
          rw [hcontent, List.nil_append, h.reader_eq hscript, hscript, received, if_pos rfl]
            at hagrees
          rw [hagrees]
          apply List.cons_ne_nil
      | cons b' content =>
          left
          use 1
          rw [ByteNetwork.io, hnode]
          dsimp only
          rw [List.length_append, hcontent, if_pos]
          · exact ⟨_, rfl⟩
          · simp

/-- As long as a script is not over, some process has a call to make: the one that waits
for the first channel does not wait. -/
theorem exists_io (h : Session w goal script net) (hrank : Function.Injective w.rank)
    (hends : ∀ c, w.writer c ≠ w.reader c) {i : ι} (hi : script i ≠ []) :
  ∃ j count net', ByteNetwork.io w net j count = some net'
  := by
  obtain ⟨op, rest, hscript⟩ := List.exists_cons_of_ne_nil hi
  induction hr : w.rank op.chan using Nat.strongRecOn generalizing i op rest with
  | ind r ih =>
      cases op with
      | send c bytes =>
          use i
          apply h.exists_io_of_send hscript
      | recv c bytes =>
          cases h.exists_io_of_recv hscript with
          | inl hio =>
              use i
          | inr hsend =>
              obtain ⟨bytes', hmem⟩ := hsend
              obtain ⟨op', rest', hscript'⟩ :=
                List.exists_cons_of_ne_nil (List.ne_nil_of_mem hmem)
              cases op' with
              | send c' bytes'' =>
                  use w.writer c
                  apply h.exists_io_of_send hscript'
              | recv c' bytes'' =>
                  have hordered := h.ordered (w.writer c)
                  rw [hscript'] at hordered hmem
                  have hmem' : Op.send c bytes' ∈ rest' := by
                    cases List.mem_cons.mp hmem with
                    | inl heq => contradiction
                    | inr hmem => exact hmem
                  have hle : w.rank c' ≤ w.rank c :=
                    (List.pairwise_cons.mp hordered).1 _ hmem'
                  have hne : c' ≠ c := by
                    rintro rfl
                    apply hends c'
                    rw [h.reader_eq hscript']
                  have hlt : w.rank c' < r := by
                    rw [← hr]
                    apply Nat.lt_of_le_of_ne hle
                    apply hrank.ne hne
                  apply ih _ hlt _ _ _ hscript' rfl
                  rw [hscript']
                  apply List.cons_ne_nil

end Session

end

end ByteNetwork
