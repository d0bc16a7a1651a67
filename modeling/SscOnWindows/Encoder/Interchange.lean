import SscOnWindows.Encoder.Wire

/-!
# The two daemons

`service_client` of `sscblobd.c` and of `sscblobd.py`.  Both read a request from the client,
hand it to the helper and write an answer to the client; they differ in what they do with
the result of the helper.

A session has the bytes the client sends before it closes the connection, and the bytes the
helper has written that the daemon has not read.  The replies of the helper are a parameter.
-/

namespace Ssc

open ByteStream

/-- `MAX_FRAME_SAMPLES` of the daemon in Python. -/
def pyMaxFrameSamples : Nat := 16384

/-- `MAX_ENCODE_BYTES` of the daemon in Python. -/
def pyMaxEncodeBytes : Nat := 4096

/-- What the helper writes for a request: a result, and the frame when there is one.  A
helper that does not write the whole frame has exited; it does so only when the frame is
above its limit. -/
structure HelperReply where
  ret : Int
  frame : List UInt8
  ret_ge : -2 ^ 31 ≤ ret
  ret_lt : ret < 2 ^ 31
  frame_length : frame.length ≤ ret.toNat
  frame_whole : ret ≤ helperMaxEncodeBytes → frame.length = ret.toNat

namespace HelperReply

/-- The helper has exited before the end of the frame. -/
def short (r : HelperReply) : Bool :=
  decide (r.frame.length < r.ret.toNat)

def bytes (r : HelperReply) : List UInt8 :=
  retBytes r.ret ++ r.frame

end HelperReply

/-- The helper: its reply to a request, given the requests before it. -/
abbrev HelperReplies : Type := List (List UInt8) → List UInt8 → HelperReply

/-- How `service_client` ends: the connection is closed, the daemon is asked to exit, the
request cannot be written since the helper has exited, or the daemon waits for a helper that
has nothing to write. -/
inductive Ending where
  | closed
  | shutdown
  | helperLost
  | blocked
  deriving DecidableEq, Repr

/-- `service_client` between two requests: the bytes of the client that are not read, the
requests given to the helper, the bytes of the helper that are not read, whether the helper
has exited, and the bytes written to the client. -/
structure ClientSession where
  input : List UInt8
  served : List (List UInt8) := []
  pipe : List UInt8 := []
  exited : Bool := false
  output : List UInt8 := []
  deriving DecidableEq, Repr

/-- `read_full` and `recv_exact` on a stream that ends: `n` bytes from its front, and the
rest. -/
def readExact (n : Nat) (stream : List UInt8) : Option (List UInt8 × List UInt8) :=
  if n ≤ stream.length then some (stream.take n, stream.drop n) else none

namespace ClientSession

/-- The request is written to the helper, which writes its reply. -/
def submit (helper : HelperReplies) (s : ClientSession) (pcm : List UInt8) : ClientSession :=
  { s with
    served := s.served ++ [pcm]
    pipe := s.pipe ++ (helper s.served pcm).bytes
    exited := (helper s.served pcm).short }

/-- What a read from the helper comes to when there are not enough bytes. -/
def starved (s : ClientSession) : Ending :=
  if s.exited then .closed else .blocked

/-- The end of a request in `sscblobd.c`, behind the read of the result. -/
def passOnC (s : ClientSession) (ret : Int) : ClientSession × Option Ending :=
  let ret := if ret > maxEncodeBytes then 0 else ret
  if ret > 0 then
    match readExact ret.toNat s.pipe with
    | none => (s, some s.starved)
    | some (out, pipe) =>
        ({ s with pipe := pipe, output := s.output ++ retBytes ret ++ out }, none)
  else ({ s with output := s.output ++ retBytes ret }, none)

/-- The end of a request in `sscblobd.py`: the end of `HelperBridge.encode`, and the answer
to the client. -/
def passOnPy (s : ClientSession) (ret : Int) : ClientSession × Option Ending :=
  if ret ≤ 0 ∨ ret > pyMaxEncodeBytes then (s, some .closed)
  else
    match readExact ret.toNat s.pipe with
    | none => (s, some s.starved)
    | some (payload, pipe) =>
        ({ s with pipe := pipe, output := s.output ++ retBytes payload.length ++ payload }, none)

/-- A request behind the reads from the client: it is written to the helper, and the result
read. -/
def exchange (passOn : ClientSession → Int → ClientSession × Option Ending)
    (helper : HelperReplies) (s : ClientSession) (pcm : List UInt8) :
    ClientSession × Option Ending :=
  if s.exited then (s, some .helperLost)
  else
    let s := s.submit helper pcm
    match readExact 4 s.pipe with
    | none => (s, some s.starved)
    | some (bytes, pipe) => passOn { s with pipe := pipe } (signed32 (ofLe bytes))

end ClientSession

/-- What the client sends next: the session is over, or there is a request. -/
inductive Incoming where
  | over (ending : Ending)
  | request (pcm rest : List UInt8)
  deriving DecidableEq, Repr

/-- The reads from the client, with the checks of the header. -/
def incoming (maxSamples channels : Nat) (input : List UInt8) : Incoming :=
  match readExact 4 input with
  | none => .over .closed
  | some (head, input) =>
      if ofLe head = cmdShutdown then .over .shutdown
      else if ofLe head = 0 ∨ ofLe head > maxSamples then .over .closed
      else
        match readExact (ofLe head * channels * 4) input with
        | none => .over .closed
        | some (pcm, rest) => .request pcm rest

namespace ClientSession

/-- A round of the loop in `service_client`. -/
def round (maxSamples channels : Nat)
    (passOn : ClientSession → Int → ClientSession × Option Ending) (helper : HelperReplies)
    (s : ClientSession) : ClientSession × Option Ending :=
  match incoming maxSamples channels s.input with
  | .over ending => (s, some ending)
  | .request pcm rest => exchange passOn helper { s with input := rest } pcm

/-- The loop, for a number of rounds. -/
def loop (round : ClientSession → ClientSession × Option Ending) :
    Nat → ClientSession → ClientSession × Option Ending
  | 0, s => (s, none)
  | rounds + 1, s =>
      match round s with
      | (s, some ending) => (s, some ending)
      | (s, none) => loop round rounds s

/-- A client connects and sends `input`.  The helper is started and says whether it is
ready.  Each round of the loop but the last reads a header, so that there are no more than
bytes. -/
def service (round : ClientSession → ClientSession × Option Ending) (ready : Int)
    (input : List UInt8) :
    ClientSession × Option Ending :=
  if ready ≠ 0 then ({ input := input }, some .closed)
  else loop round (input.length + 1) { input := input }

/-- `service_client` of `sscblobd.c`. -/
def serviceClientC (helper : HelperReplies) (channels : Nat) (ready : Int) (input : List UInt8) :
    ClientSession × Option Ending :=
  service (round maxFrameSamples channels passOnC helper) ready input

/-- `service_client` of `sscblobd.py`. -/
def serviceClientPy (helper : HelperReplies) (channels : Nat) (ready : Int) (input : List UInt8) :
    ClientSession × Option Ending :=
  service (round pyMaxFrameSamples channels passOnPy helper) ready input

end ClientSession

/-! ### When the daemons agree -/

/-- The requests in what the client sends. -/
def requests (channels : Nat) : Nat → List UInt8 → List (List UInt8)
  | 0, _ => []
  | rounds + 1, input =>
      match incoming maxFrameSamples channels input with
      | .over _ => []
      | .request pcm rest => pcm :: requests channels rounds rest

namespace HelperReply

theorem readExact_ret (r : HelperReply) :
  readExact 4 r.bytes = some (retBytes r.ret, r.frame)
  := by
  rw [readExact, if_pos]
  · rfl
  · apply Nat.le_add_left 4

theorem signed32_ret (r : HelperReply) :
  signed32 (ofLe (retBytes r.ret)) = r.ret
  := signed32_ofLe_le32 r.ret_ge r.ret_lt

end HelperReply

namespace ClientSession

variable {helper : HelperReplies} {channels : Nat}
  {passOn : ClientSession → Int → ClientSession × Option Ending}

/-- There is nothing to be read from the helper, and it has not exited. -/
structure Clean (s : ClientSession) : Prop where
  pipe_eq : s.pipe = []
  alive : s.exited = false

/-- The session behind the result of a reply. -/
def replied (helper : HelperReplies) (s : ClientSession) (pcm rest : List UInt8) :
    ClientSession :=
  { s with
    input := rest
    served := s.served ++ [pcm]
    pipe := (helper s.served pcm).frame
    exited := (helper s.served pcm).short }

/-- A round with a request reads the result of its reply. -/
theorem round_of_request {maxSamples : Nat} {s : ClientSession} (h : s.Clean)
    {pcm rest : List UInt8} (hin : incoming maxSamples channels s.input = .request pcm rest) :
  round maxSamples channels passOn helper s
    = passOn (s.replied helper pcm rest) (helper s.served pcm).ret
  := by
  rw [round, hin]
  dsimp only
  rw [exchange, if_neg (by rw [h.alive]; nofun)]
  dsimp only [submit]
  rw [h.pipe_eq, List.nil_append, HelperReply.readExact_ret]
  dsimp only
  rw [HelperReply.signed32_ret]
  rfl

theorem round_of_over {maxSamples : Nat} {s : ClientSession} {ending : Ending}
    (hin : incoming maxSamples channels s.input = .over ending) :
  round maxSamples channels passOn helper s = (s, some ending)
  := by
  rw [round, hin]

theorem loop_of_end {f : ClientSession → ClientSession × Option Ending} {rounds : Nat}
    {s t : ClientSession} {ending : Ending} (h : f s = (t, some ending)) :
  loop f (rounds + 1) s = (t, some ending)
  := by
  rw [loop, h]

theorem loop_of_more {f : ClientSession → ClientSession × Option Ending} {rounds : Nat}
    {s t : ClientSession} (h : f s = (t, none)) :
  loop f (rounds + 1) s = loop f rounds t
  := by
  rw [loop, h]

/-- A whole frame within the limit of both is passed on by both. -/
theorem passOnC_of_whole {s : ClientSession} {ret : Int} (hpos : 0 < ret)
    (hle : ret ≤ maxEncodeBytes) (hwhole : s.pipe.length = ret.toNat) :
  passOnC s ret = ({ s with pipe := [], output := s.output ++ retBytes ret ++ s.pipe }, none)
  := by
  rw [passOnC]
  rw [if_neg (by omega : ¬ ret > maxEncodeBytes), if_pos hpos, readExact, if_pos (by omega)]
  dsimp only
  rw [← hwhole, List.take_length, List.drop_length]

/-- The daemon in C passes on a result without a frame. -/
theorem passOnC_of_nonpos {s : ClientSession} {ret : Int} (h : ret ≤ 0) :
  passOnC s ret = ({ s with output := s.output ++ retBytes ret }, none)
  := by
  rw [passOnC, if_neg (by rw [maxEncodeBytes]; omega : ¬ ret > maxEncodeBytes), if_neg (by omega)]

theorem readExact_length {n : Nat} {stream bytes rest : List UInt8}
    (h : readExact n stream = some (bytes, rest)) :
  rest.length + n = stream.length
  := by
  rw [readExact, Option.ite_none_right_eq_some] at h
  obtain ⟨hle, h⟩ := h
  rw [← (Prod.mk.inj (Option.some.inj h)).2, List.length_drop]
  omega

/-- A request is longer than its header. -/
theorem incoming_length {maxSamples : Nat} {input pcm rest : List UInt8}
    (h : incoming maxSamples channels input = .request pcm rest) :
  rest.length < input.length
  := by
  rw [incoming] at h
  split at h
  · contradiction
  · rename_i head input' hhead
    split at h
    · contradiction
    · split at h
      · contradiction
      · split at h
        · contradiction
        · rename_i hpcm
          injection h with _ hrest
          subst hrest
          have hhead := readExact_length hhead
          have hpcm := readExact_length hpcm
          omega

theorem passOnC_input (s : ClientSession) (ret : Int) :
  (passOnC s ret).1.input = s.input
  := by
  rw [passOnC]
  generalize (if ret > maxEncodeBytes then 0 else ret) = limited
  split
  · split <;> rfl
  · rfl

theorem passOnPy_input (s : ClientSession) (ret : Int) :
  (passOnPy s ret).1.input = s.input
  := by
  rw [passOnPy]
  split
  · rfl
  · split <;> rfl

/-- A round after which there is another one has read a request. -/
theorem round_input {maxSamples : Nat} (hpass : ∀ s ret, (passOn s ret).1.input = s.input)
    {s t : ClientSession} (h : round maxSamples channels passOn helper s = (t, none)) :
  t.input.length < s.input.length
  := by
  rw [round] at h
  split at h
  · cases h
  · rename_i pcm rest hin
    have hlt := incoming_length hin
    rw [exchange] at h
    split at h
    · cases h
    · dsimp only at h
      split at h
      · cases h
      · rename_i bytes pipe hpipe
        have hinput := hpass { submit helper { s with input := rest } pcm with pipe := pipe }
          (signed32 (ofLe bytes))
        rw [h] at hinput
        rw [show t.input = rest from hinput]
        apply hlt

theorem loop_ends {f : ClientSession → ClientSession × Option Ending}
    (hf : ∀ s t, f s = (t, none) → t.input.length < s.input.length) (rounds : Nat)
    (s : ClientSession) (h : s.input.length < rounds) :
  (loop f rounds s).2 ≠ none
  := by
  induction rounds generalizing s with
  | zero => contradiction
  | succ rounds ih =>
      rw [loop]
      split
      · nofun
      · rename_i t ht
        have hlt := hf s t ht
        apply ih t
        omega

/-- Both daemons come to the end of every session. -/
theorem serviceClientC_ends (helper : HelperReplies) (channels : Nat) (ready : Int)
    (input : List UInt8) :
  (serviceClientC helper channels ready input).2 ≠ none
  := by
  rw [serviceClientC, service]
  split
  · nofun
  · apply loop_ends (fun _ _ => round_input passOnC_input)
    apply Nat.lt_succ_self

theorem serviceClientPy_ends (helper : HelperReplies) (channels : Nat) (ready : Int)
    (input : List UInt8) :
  (serviceClientPy helper channels ready input).2 ≠ none
  := by
  rw [serviceClientPy, service]
  split
  · nofun
  · apply loop_ends (fun _ _ => round_input passOnPy_input)
    apply Nat.lt_succ_self

/-! ### The daemon in C as the other end of the network -/

/-- A request is read when it is whole and its header is not refused. -/
theorem incoming_eq_request_iff {c : Client} {pcm rest : List UInt8} :
  incoming maxFrameSamples channels c.input = .request pcm rest
    ↔ 4 ≤ c.input.length ∧ c.refuses = false ∧ 4 + c.pcmBytes channels ≤ c.input.length
      ∧ pcm = (c.input.drop 4).take (c.pcmBytes channels)
      ∧ rest = c.input.drop (4 + c.pcmBytes channels)
  := by
  have hrefuses : c.refuses = false ↔ ¬ ofLe (c.input.take 4) = cmdShutdown
      ∧ ¬ (ofLe (c.input.take 4) = 0 ∨ ofLe (c.input.take 4) > maxFrameSamples) := by
    simp [Client.refuses, Client.frameSamples, and_assoc]
  have hbytes : c.pcmBytes channels = ofLe (c.input.take 4) * channels * 4 := rfl
  rw [hrefuses, hbytes, incoming, readExact]
  by_cases hhead : 4 ≤ c.input.length
  · rw [if_pos hhead]
    dsimp only
    by_cases hshutdown : ofLe (c.input.take 4) = cmdShutdown
    · rw [if_pos hshutdown]
      simp [hshutdown]
    · rw [if_neg hshutdown]
      by_cases hbad : ofLe (c.input.take 4) = 0 ∨ ofLe (c.input.take 4) > maxFrameSamples
      · rw [if_pos hbad]
        simp [hbad]
      · rw [if_neg hbad, readExact]
        by_cases hpcm : ofLe (c.input.take 4) * channels * 4 ≤ (c.input.drop 4).length
        · rw [if_pos hpcm]
          rw [List.length_drop] at hpcm
          have hwhole : 4 + ofLe (c.input.take 4) * channels * 4 ≤ c.input.length := by omega
          simp only [Incoming.request.injEq, List.drop_drop, hhead, hshutdown, hbad, hwhole,
            not_false_eq_true, true_and]
          constructor
          · rintro ⟨rfl, rfl⟩
            exact ⟨rfl, rfl⟩
          · rintro ⟨rfl, rfl⟩
            exact ⟨rfl, rfl⟩
        · rw [if_neg hpcm]
          rw [List.length_drop] at hpcm
          apply iff_of_false
          · intro h
            contradiction
          · rintro ⟨-, -, hwhole, -⟩
            omega
  · rw [if_neg hhead]
    apply iff_of_false
    · intro h
      contradiction
    · rintro ⟨hle, -⟩
      apply hhead hle

/-- The daemon at the other end of the network serves what is read here. -/
theorem serve_of_request {blob : Helper} {rounds : Nat} {input pcm rest : List UInt8}
    {served : List (List UInt8)}
    (h : incoming maxFrameSamples channels input = .request pcm rest) :
  (Client.serve blob channels (rounds + 1) ⟨input, served, false⟩).2
    = (blob served pcm).bytes
      ++ (Client.serve blob channels rounds ⟨rest, served ++ [pcm], false⟩).2
  := by
  obtain ⟨hhead, hrefuses, hwhole, rfl, rfl⟩ :=
    (incoming_eq_request_iff (c := ⟨input, served, false⟩)).mp h
  rw [Client.serve]
  rw [if_neg (by simpa using hhead), if_neg (by simp [hrefuses]),
    if_neg (by simpa using hwhole)]

theorem serve_of_over {blob : Helper} {rounds : Nat} {input : List UInt8}
    {served : List (List UInt8)} {ending : Ending}
    (h : incoming maxFrameSamples channels input = .over ending) :
  (Client.serve blob channels (rounds + 1) ⟨input, served, false⟩).2 = []
  := by
  rw [Client.serve]
  split
  · rfl
  · rename_i hopen
    split
    · rfl
    · rename_i hrefuses
      split
      · rfl
      · rename_i hwhole
        rw [Bool.false_or, decide_eq_true_eq, not_lt] at hopen
        have hrequest := incoming_eq_request_iff (c := ⟨input, served, false⟩).mpr
          ⟨hopen, Bool.eq_false_of_not_eq_true hrefuses, not_lt.mp hwhole, rfl, rfl⟩
        rw [show incoming maxFrameSamples channels input = .over ending from h] at hrequest
        contradiction

theorem length_frame (a : Answer) :
  (if 0 < a.ret then a.payload else []).length = a.ret.toNat
  := by
  split
  · rename_i hpos
    apply a.payload_length hpos
  · rename_i hnonpos
    rw [List.length_nil]
    omega

/-- The reply that is the whole of an answer. -/
def wholeReply (a : Answer) : HelperReply where
  ret := a.ret
  frame := if 0 < a.ret then a.payload else []
  ret_ge := a.ret_ge
  ret_lt := a.ret_lt
  frame_length := (length_frame a).le
  frame_whole _ := length_frame a

theorem wholeReply_not_short (a : Answer) :
  (wholeReply a).short = false
  := by
  apply decide_eq_false
  apply Nat.not_lt_of_le
  apply (length_frame a).ge

/-- A whole answer is passed on. -/
theorem passOnC_answer {s : ClientSession} {a : Answer} (hle : a.ret ≤ maxEncodeBytes)
    (hpipe : s.pipe = (wholeReply a).frame) (hexited : s.exited = (wholeReply a).short) :
  ∃ t, passOnC s a.ret = (t, none) ∧ t.Clean ∧ t.input = s.input ∧ t.served = s.served
    ∧ t.output = s.output ++ a.bytes
  := by
  have hsent : a.sentRet = a.ret := if_neg (by omega)
  have halive := wholeReply_not_short a
  by_cases hpos : 0 < a.ret
  · have hframe : (wholeReply a).frame = a.payload := if_pos hpos
    have hwhole : s.pipe.length = a.ret.toNat := by
      rw [hpipe, hframe, a.payload_length hpos]
    use { s with pipe := [], output := s.output ++ retBytes a.ret ++ s.pipe }
    constructor
    · apply passOnC_of_whole hpos hle hwhole
    · constructor
      · exact ⟨rfl, hexited.trans halive⟩
      · refine ⟨rfl, rfl, ?_⟩
        rw [Answer.bytes, hsent, if_pos hpos, List.append_assoc, hpipe, hframe]
        rfl
  · have hframe : (wholeReply a).frame = [] := if_neg hpos
    use { s with output := s.output ++ retBytes a.ret }
    constructor
    · apply passOnC_of_nonpos (by omega)
    · constructor
      · exact ⟨hpipe.trans hframe, hexited.trans halive⟩
      · refine ⟨rfl, rfl, ?_⟩
        rw [Answer.bytes, hsent, if_neg hpos, List.append_nil]
        rfl

/-- With a helper whose answers are whole and within its limit, the daemon in C writes what
the daemon at the other end of the network writes. -/
theorem loop_serve {blob : Helper} (hle : ∀ served pcm, (blob served pcm).ret ≤ maxEncodeBytes)
    (rounds : Nat) (s : ClientSession) (hclean : s.Clean) :
  (loop (round maxFrameSamples channels passOnC (fun served pcm => wholeReply (blob served pcm)))
      rounds s).1.output
    = s.output ++ (Client.serve blob channels rounds ⟨s.input, s.served, false⟩).2
  := by
  induction rounds generalizing s with
  | zero => apply (List.append_nil _).symm
  | succ rounds ih =>
      rcases hin : incoming maxFrameSamples channels s.input with ending | ⟨pcm, rest⟩
      · rw [loop_of_end (round_of_over hin), serve_of_over hin, List.append_nil]
      · have hround : round maxFrameSamples channels passOnC
            (fun served pcm => wholeReply (blob served pcm)) s = _ :=
          round_of_request hclean hin
        obtain ⟨t, ht, htclean, hinput, hserved, houtput⟩ := passOnC_answer
          (s := s.replied (fun served pcm => wholeReply (blob served pcm)) pcm rest)
          (hle s.served pcm) rfl rfl
        rw [loop_of_more (hround.trans ht), ih t htclean, serve_of_request hin, houtput, hinput,
          hserved, List.append_assoc]
        rfl

end ClientSession

end Ssc
