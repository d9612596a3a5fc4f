import S3Gateway.S3fs.Prefetch

/-!
# Reads over broken bodies

`fetchChunk` reads a body into the buffer before it knows whether the read
succeeds. When the body breaks off with an error other than an early end, the
buffer has been overwritten while `bufStart` and `bufLen` still describe the chunk
it held before: the window is torn. A later read inside that window returns the
wrong bytes.

Reads that stay out of a torn window return only bytes of the object. The window is
torn exactly while the last body S3 has sent broke off (`windowTorn`), since every
other body replaces the window.
-/

namespace S3Gateway

open Lib

/-- Whether the body broke off: `io.ReadFull` neither filled the buffer nor met an end
of the body. -/
def brokeOff (body : Body) (length : Int) : Bool :=
  match (readFull body length.toNat).2 with
  | none | some .unexpectedEOF | some .eof => false
  | some _ => true

/-- Whether the last body of the log, newest first, broke off. Refused requests bring
no body. -/
def windowTorn : List RangeCall → Bool
  | [] => false
  | rc :: log =>
    match rc.reply with
    | .error _ => windowTorn log
    | .ok body => brokeOff body rc.length

/-- A `Read` that returns, and does not start inside a torn window. -/
def CarefulRead (s : ReadSession) (op : ReadOp) : Prop :=
  match op with
  | .read .. => s.reply op ≠ .read none ∧
      ¬ (windowTorn s.world.ranges = true ∧ s.file.reader.inBuffer s.file.offset = true)
  | .seek .. => True

/-- Every byte the call reports for a position is the object's byte there. -/
def ReportsBytesOf (c : Bytes) (s : ReadSession) (op : ReadOp) : Prop :=
  ∀ data err, s.reply op = .read (some (data, err)) → data <+: c.drop s.file.offset.toNat

section Faults

variable {key : GoString} {c : Bytes} {env : Nat → Outcome}

/-- The window shows the object's bytes unless it is torn. -/
def WindowIfSound (key : GoString) (c : Bytes) (env : Nat → Outcome) (r : ChunkReader) (w : World) :
    Prop :=
  r.On key c ∧ Plain key c env w.ranges w ∧ (windowTorn w.ranges = false → r.Window c)

theorem rangeReply_isPrefix {o : Outcome} {data : Bytes} {body : Body}
    (h : rangeReply o data = .ok body) : body.data <+: data := by
  unfold rangeReply World.answer at h
  cases hf : o.fault with
  | none =>
    rw [hf] at h
    cases h
    exact List.prefix_refl _
  | call err =>
    rw [hf] at h
    cases h
  | body n err =>
    rw [hf] at h
    cases h
    exact List.take_prefix _ _

/-- A body that did not break off is a fetch that succeeds. -/
theorem receive_isOk {r : ChunkReader} {off length : Int} {body : Body}
    (h : brokeOff body length = false) : (r.receive off length (.ok body)).1 = .ok () := by
  unfold brokeOff at h
  unfold ChunkReader.receive
  dsimp only
  generalize readFull body length.toNat = res at h ⊢
  obtain ⟨got, err⟩ := res
  -- both functions tell the same three ends of a body from the rest
  rcases err with _ | err
  · rfl
  · cases err
    case eof => rfl
    case unexpectedEOF => rfl
    all_goals cases h

/-- Any fetch leaves a sound window or a torn one, and a successful one a sound one. -/
theorem triple_fetchChunk_faults (r : ChunkReader) (off : Int) (hoff : 0 ≤ off)
    (hlt : off < c.length) :
    Prog.Triple World.handle (WindowIfSound key c env r) (r.fetchChunk off) fun res w =>
      match res.1 with
      | .ok _ => WindowIfSound key c env res.2 w ∧ res.2.Window c ∧
          (False → res.2.inBuffer off = true)
      | .error _ => WindowIfSound key c env res.2 w := by
  rintro w ⟨hon, hplain, hwin⟩
  obtain ⟨i, reply, hreply, hres, hplain'⟩ := triple_fetchChunk_plain hon hlt w hplain
  have hon' := hon.receive off (r.fetchLength off) reply
  have hpre : ∀ body, reply = .ok body →
      body.data <+: slice c off.toNat (r.fetchLength off).toNat :=
    fun body hbody => rangeReply_isPrefix (hreply ▸ hbody)
  rw [hres]
  have hlog := hplain'.ranges
  have hsound : windowTorn ((r.fetchChunk off).run World.handle w).2.ranges = false →
      (r.receive off (r.fetchLength off) reply).2.Window c := by
    rw [hlog]
    intro hsound
    cases reply with
    | error err => exact hwin hsound
    | ok body => exact ChunkReader.window_receive hoff hpre (receive_isOk hsound)
  have hB : WindowIfSound key c env (r.receive off (r.fetchLength off) reply).2
      ((r.fetchChunk off).run World.handle w).2 :=
    ⟨hon', hlog ▸ hplain', hsound⟩
  cases hr : (r.receive off (r.fetchLength off) reply).1 with
  | error err => exact hB
  | ok _ => exact ⟨hB, ChunkReader.window_receive hoff hpre hr, False.elim⟩

/-- A session without a data cache, on an S3 that may fail in any way. -/
structure FaultySession (key : GoString) (c : Bytes) (env : Nat → Outcome) (s : ReadSession) :
    Prop where
  file : s.file.On key c
  world : Plain key c env s.world.ranges s.world
  window : windowTorn s.world.ranges = false → s.file.reader.Window c

variable {s : ReadSession}

theorem FaultySession.read (h : FaultySession key c env s) (hlen : (c.length : Int) < offsetLimit)
    {fuel n : Nat} (hcare : CarefulRead s (.read fuel n)) :
    ReportsBytesOf c s (.read fuel n) ∧ FaultySession key c env (s.step (.read fuel n)) := by
  obtain ⟨hreturns, hout⟩ := hcare
  have hin : s.file.reader.inBuffer s.file.offset = true → s.file.reader.Window c := by
    intro hin
    refine h.window (Bool.eq_false_iff.mpr fun htorn => hout ⟨htorn, hin⟩)
  obtain ⟨hspec, -⟩ := ChunkReader.triple_readAt_rule
    (B := fun _ => WindowIfSound key c env) (K := fun _ => WindowIfSound key c env)
    (fun _ _ _ hB => hB.1) (fun _ _ _ hK => hK.1) (fun _ _ _ _ hB _ => hB)
    (fun off r hoff hlt _ => triple_fetchChunk_faults r off hoff hlt)
    (fun off r w hB => ⟨hB.1.track off, hB.2.1, fun hs => (hB.2.2 hs).track off⟩)
    (fun _ _ _ _ hB => ⟨⟨hB.1.s3Key, hB.1.size, hB.1.chunkSize⟩, hB.2⟩)
    (fun _ _ _ _ hK => ⟨⟨hK.1.s3Key, hK.1.size, hK.1.chunkSize⟩, hK.2⟩)
    n fuel s.file.reader s.file.offset h.file.offset.1 s.world
    ⟨⟨h.file.reader, h.world, h.window⟩, hin⟩
  have hread := ReadSession.read_eq h.file fuel n
  rcases hrun : (s.file.reader.readAt fuel n s.file.offset).run World.handle s.world with
    ⟨_ | ⟨⟨data, err⟩, r⟩, w⟩
  · rw [hrun] at hread
    exact absurd hread.1 hreturns
  · rw [hrun] at hspec hread
    obtain ⟨hreply, hstep⟩ := hread
    obtain ⟨hbytes, -, houtcome⟩ := hspec (data, err) r rfl
    dsimp only at hbytes
    have hB : WindowIfSound key c env r w := by
      rcases houtcome with ⟨⟨-, hB⟩, -⟩ | ⟨-, hB, -⟩ <;> exact hB
    refine ⟨fun data' err' hr => ?_, ?_⟩
    · rw [hreply] at hr
      cases hr
      exact hbytes ▸ List.take_prefix _ _
    · rw [hstep]
      exact ⟨h.file.advance hlen hB.1 hbytes, hB.2.1, hB.2.2⟩

theorem FaultySession.seek (h : FaultySession key c env s) (hlen : (c.length : Int) < offsetLimit)
    (offset : Int64) (whence : Int) : FaultySession key c env (s.step (.seek offset whence)) := by
  obtain ⟨t, chunked, hseek, ht, hchunked⟩ := h.file.seek hlen offset whence
  unfold ReadSession.step
  dsimp only
  rw [hseek]
  exact ⟨h.file.sought ht hchunked, h.world, fun hs => S3File.window_sought (h.window hs) hchunked⟩

end Faults

/-- Whatever requests and bodies fail, every byte reported in a run whose reads stay out
of torn windows is the object's. -/
theorem reportsBytesOf_eachStep {key : GoString} {c : Bytes} {s : ReadSession}
    (hs : s.Fresh key c) (hcache : s.world.dataCache = none)
    (hlen : (c.length : Int) < offsetLimit) {ops : List ReadOp}
    (hops : EachStep ReadSession.step CarefulRead s ops) :
    EachStep ReadSession.step (ReportsBytesOf c) s ops := by
  obtain ⟨hon, hwin⟩ := S3File.on_of_fresh hs.opened hs.isFile hs.offset hs.size hs.chunked
  rw [hs.s3Key] at hon
  refine EachStep.of_invariant (I := FaultySession key c s.world.env) (fun s' op h hop => ?_)
    ⟨hon, ⟨hcache, hs.stored, rfl, rfl⟩, fun _ => hwin⟩ hops
  cases op with
  | read fuel n => exact h.read hlen hop
  | seek offset whence =>
    refine ⟨fun data err hr => ?_, h.seek hlen offset whence⟩
    cases hr

/-- The schedule of a broken body: the first ranged request (call 1) is answered with one
byte and an early end, the second (call 4) with one byte and an error. -/
def brokenBodySchedule (i : Nat) : Outcome :=
  if i = 1 then { Outcome.fine with fault := .body 1 .unexpectedEOF }
  else if i = 4 then { Outcome.fine with fault := .body 1 (.transport 0) }
  else .fine

/-- A body breaks off and the read is repeated at its position. -/
theorem reportsBytesOf_retried_read :
    EachStep ReadSession.step (ReportsBytesOf [1, 2, 3]) (threeByteSession brokenBodySchedule)
      [.read 5 1, .read 5 1, .read 5 1] := by
  refine reportsBytesOf_eachStep (fresh_threeByteSession _) rfl (by decide) ?_
  refine ⟨?_, ?_, ?_, trivial⟩
  all_goals
    show _ ∧ ¬ _
    decide

/-- A body breaks off while the buffer holds the first byte; that byte is read again, and
the second byte of the object is reported in its place. -/
theorem read_after_broken_body_wrong :
    (threeByteSession brokenBodySchedule).Fresh (gs "f") [1, 2, 3] ∧
    (threeByteSession brokenBodySchedule).world.dataCache = none ∧
    ¬ EachStep ReadSession.step (ReportsBytesOf [1, 2, 3]) (threeByteSession brokenBodySchedule)
      [.read 5 1, .read 5 1, .seek 0 0, .read 5 1] := by
  refine ⟨fresh_threeByteSession _, rfl, fun h => ?_⟩
  have hlast := h.2.2.2.1 [2] none (by decide)
  revert hlast
  decide

end S3Gateway
