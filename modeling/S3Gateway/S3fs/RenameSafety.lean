import S3Gateway.S3fs.Directories
import S3Gateway.S3fs.Footprint

/-!
# `Rename` while others run

`Rename` copies the object and then deletes the original. Each of the two calls may fail,
the process may end between them, and other operations run at the same time. As long as
those leave the two keys alone, the keys hold one of three things at every instant: what
they held at first, the object and its copy, or the copy alone (`rename_three_states`). So
the contents are never lost, and what was at the new key stays until the copy replaces it.
Renaming a path onto itself is left out: there the deletion takes the only copy.
-/

namespace S3Gateway

open Lib

/-- The states of the two keys of a rename: nothing has happened, the object has been
copied, the original has been deleted. -/
def Renaming (o : Object) (atNew : Option Object) (seen : List (Option Object)) : Prop :=
  seen = [some o, atNew] ∨
    ∃ o', o'.contents = o.contents ∧ (seen = [some o, some o'] ∨ seen = [none, some o'])

section Calls

variable {w : World} {o : Object} {oldKey newKey : GoString}

theorem get_of_seen {x y : Option Object} (h : w.seen [oldKey, newKey] = [x, y]) :
    w.bucket.get oldKey = x ∧ w.bucket.get newKey = y := by
  simpa [World.seen] using h

/-- `CopyObject` fails without effect, or the copy is there. -/
theorem copyObject_seen (hne : newKey ≠ oldKey) {atNew : Option Object}
    (h : w.seen [oldKey, newKey] = [some o, atNew]) :
    (∃ err, (World.handle (.copyObject oldKey newKey) w).1 = .error err ∧
        (World.handle (.copyObject oldKey newKey) w).2.seen [oldKey, newKey] = [some o, atNew]) ∨
      (World.handle (.copyObject oldKey newKey) w).1 = .ok () ∧ ∃ o', o'.contents = o.contents ∧
        (World.handle (.copyObject oldKey newKey) w).2.seen [oldKey, newKey]
          = [some o, some o'] := by
  obtain ⟨hold, -⟩ := get_of_seen h
  have hcall : World.handle (.copyObject oldKey newKey) w
      = w.begin.mutate w.outcome
        (w.bucket.copyObject oldKey newKey w.begin.clock w.outcome.etag) := rfl
  rw [hcall]
  rcases w.begin.mutate_cases w.outcome _ with ⟨err, hm⟩ | hm
  · rw [hm]
    exact Or.inl ⟨err, rfl, h⟩
  · rw [hm, Bucket.copyObject, hold]
    dsimp only
    by_cases hk : newKey = []
    · subst hk
      rw [Bucket.putObject_nil]
      exact Or.inl ⟨_, rfl, h⟩
    · rw [Bucket.putObject_of_ne _ hk]
      refine Or.inr ⟨rfl, { o with lastModified := w.begin.clock, etag := w.outcome.etag }, rfl, ?_⟩
      simp only [World.seen, List.map_cons, List.map_nil, Bucket.get_put, if_neg hne.symm, if_true,
        hold]

/-- `DeleteObject` fails without effect, or the original is gone. -/
theorem deleteObject_seen (hne : newKey ≠ oldKey) {o' : Object}
    (h : w.seen [oldKey, newKey] = [some o, some o']) :
    (∃ err, (World.handle (.deleteObject oldKey) w).1 = .error err ∧
        (World.handle (.deleteObject oldKey) w).2.seen [oldKey, newKey] = [some o, some o']) ∨
      (World.handle (.deleteObject oldKey) w).1 = .ok () ∧
        (World.handle (.deleteObject oldKey) w).2.seen [oldKey, newKey] = [none, some o'] := by
  obtain ⟨hold, hnew⟩ := get_of_seen h
  have hk : oldKey ≠ [] := Bucket.ne_nil_of_get hold
  have hcall : World.handle (.deleteObject oldKey) w
      = w.begin.mutate w.outcome (w.bucket.deleteObject oldKey) := rfl
  rw [hcall, Bucket.deleteObject_of_ne hk]
  rcases w.begin.mutate_cases w.outcome _ with ⟨err, hm⟩ | hm
  · rw [hm]
    exact Or.inl ⟨err, rfl, h⟩
  · rw [hm]
    refine Or.inr ⟨rfl, ?_⟩
    simp only [World.seen, List.map_cons, List.map_nil, Bucket.get_remove, if_neg hne, if_true,
      hnew]

end Calls

/-! ## The method -/

/-- The branch of `Rename` that moves the object passes through the three states. -/
theorem guards_renameObject (what which : GoString) {oldKey newKey : GoString}
    (hne : newKey ≠ oldKey) (o : Object) (atNew : Option Object) :
    (renameObject what which oldKey newKey).Guards World.handle (World.seen [oldKey, newKey])
      (Renaming o atNew) [some o, atNew] := by
  have hstart : Renaming o atNew [some o, atNew] := Or.inl rfl
  refine Prog.guards_call_bind hstart fun w hw => ?_
  rcases copyObject_seen hne hw with ⟨err, hr, hseen⟩ | ⟨hr, o', hsame, hseen⟩
  · rw [hr, hseen]
    exact hstart
  · rw [hr, hseen]
    have hboth : Renaming o atNew [some o, some o'] := Or.inr ⟨o', hsame, Or.inl rfl⟩
    refine Prog.guards_call_bind hboth fun w hw => ?_
    rcases deleteObject_seen hne hw with ⟨err, hr, hseen⟩ | ⟨hr, hseen⟩
    · rw [hr, hseen]
      exact hboth
    · rw [hr, hseen]
      -- what follows does not touch the bucket
      have hmoved : Renaming o atNew [none, some o'] := Or.inr ⟨o', hsame, Or.inr rfl⟩
      have hspare : ∀ {β : Type} {e : Eff β}, e.writesBucket = false →
          ∀ w, World.seen [oldKey, newKey] (World.handle e w).2 = World.seen [oldKey, newKey] w :=
        fun he w =>
          congrArg (fun b => [oldKey, newKey].map (Bucket.get b)) (World.handle_bucket he w)
      refine Prog.guards_spare_bind hmoved (hspare rfl) fun _ => ?_
      refine Prog.guards_spare_bind hmoved (hspare rfl) fun _ => ?_
      refine Prog.guards_spare_bind hmoved (hspare rfl) fun _ => ?_
      refine Prog.guards_spare_bind hmoved (hspare rfl) fun _ => ?_
      refine Prog.guards_spare_bind hmoved (hspare rfl) fun _ => ?_
      refine Prog.guards_spare_bind hmoved (hspare rfl) fun _ => ?_
      exact Prog.guards_spare_bind hmoved (hspare rfl) fun _ => hmoved

/-- A call on other keys, or on the empty one, which S3 rejects. -/
theorem seen_handle {β : Type} {e : Eff β} {keys : List GoString}
    (h : ∀ k ∈ keys, k ∈ e.alters → k = []) (w : World) :
    (World.handle e w).2.seen keys = w.seen keys := by
  refine List.map_congr_left fun k hk => ?_
  by_cases hmem : k ∈ e.alters
  · rw [h k hk hmem, Bucket.get_nil, Bucket.get_nil]
  · exact World.get_handle hmem w

/-- A program that keeps to other keys. -/
theorem Confined.spares {ks keys : List GoString} {α : Type} {p : Gw α} (hp : Confined ks p)
    (h : ∀ k ∈ keys, k ∈ ks → k = []) : p.Spares World.handle (World.seen keys) :=
  hp.mono fun _ he w => seen_handle (fun k hk hmem => h k hk (he k hmem)) w

/-- A path's own key and the directory key of any path are different, unless empty. -/
theorem eq_nil_of_file_of_dir {path path' path₁ path₁' k : GoString}
    (hfile : k ∈ [s3KeyFromPath path, s3KeyFromPath path'])
    (hdir : k ∈ [s3DirKey (s3KeyFromPath path₁), s3DirKey (s3KeyFromPath path₁')]) : k = [] := by
  have hne : ∀ {p p' : GoString}, s3KeyFromPath p = s3DirKey (s3KeyFromPath p') →
      s3KeyFromPath p = [] := fun heq => Classical.byContradiction fun hk =>
    s3KeyFromPath_ne_s3DirKey hk heq
  simp only [List.mem_cons, List.not_mem_nil, or_false] at hfile hdir
  rcases hfile with rfl | rfl <;> rcases hdir with hdir | hdir <;> exact hne hdir

/-- Moving an object changes its old and its new key. -/
theorem confined_renameObject (what which oldKey newKey : GoString) :
    Confined [oldKey, newKey] (renameObject what which oldKey newKey) := by
  refine only_renameObject (fun e he k hk => ?_) what which ?_ ?_ fun k hk => hk
  · rw [he] at hk
    cases hk
  · exact List.forall_mem_singleton.mpr (List.mem_cons_of_mem _ List.mem_cons_self)
  · exact List.forall_mem_singleton.mpr List.mem_cons_self

/-- `Rename` moves the file or the marker, and leaves the other alone. -/
theorem guards_rename {oldpath newpath oldKey newKey : GoString}
    (hkeys : RenameKeys oldpath newpath (oldKey, newKey)) (hne : newKey ≠ oldKey) (o : Object)
    (atNew : Option Object) :
    (rename oldpath newpath).Guards World.handle (World.seen [oldKey, newKey]) (Renaming o atNew)
      [some o, atNew] := by
  have hstart : Renaming o atNew [some o, atNew] := Or.inl rfl
  have hask : ∀ {β : Type} {e : Eff β}, e.alters = [] →
      ∀ w, World.seen [oldKey, newKey] (World.handle e w).2 = World.seen [oldKey, newKey] w :=
    fun he w => seen_handle (fun k _ hk => by rw [he] at hk; cases hk) w
  rcases hkeys with heq | heq
  · cases heq
    refine Prog.guards_spare_bind hstart (hask rfl) fun res => ?_
    cases res with
    | ok _ => exact guards_renameObject _ _ hne o atNew
    | error _ =>
      refine Prog.guards_spare_bind hstart (hask rfl) fun res => ?_
      cases res with
      | ok _ =>
        refine Prog.Spares.guards ?_ hstart
        exact (confined_renameObject _ _ _ _).spares fun k hfile hdir =>
          eq_nil_of_file_of_dir hfile hdir
      | error _ => exact hstart
  · cases heq
    refine Prog.guards_spare_bind hstart (hask rfl) fun res => ?_
    cases res with
    | ok _ =>
      refine Prog.Spares.guards ?_ hstart
      exact (confined_renameObject _ _ _ _).spares fun k hdir hfile =>
        eq_nil_of_file_of_dir hfile hdir
    | error _ =>
      refine Prog.guards_spare_bind hstart (hask rfl) fun res => ?_
      cases res with
      | ok _ => exact guards_renameObject _ _ hne o atNew
      | error _ => exact hstart

/-- `Rename` never loses the object. Let a rename begin of a path to another one, with an
object at the old key (of the file, or of the directory marker), and let the operations
under way and those that begin later leave the old and the new key alone. Then at every
instant, whatever calls fail and whenever the process is restarted, the two keys hold what
they held at first, or the object and a copy of it, or the copy alone. -/
theorem Gateway.rename_three_states {g : Gateway} {oldpath newpath oldKey newKey : GoString}
    (hkeys : RenameKeys oldpath newpath (oldKey, newKey)) (hne : newKey ≠ oldKey) {o : Object}
    (ho : g.shared.bucket.get oldKey = some o) (hg : ∀ p ∈ g.threads, KeepsOff [oldKey, newKey] p)
    (files : GoMap Nat File) {events : List GatewayEvent}
    (hevents : EachStep step (Leaves [oldKey, newKey])
      (step g (.begin files (.rename oldpath newpath))) events) :
    Throughout step
      (fun g' => Renaming o (g.shared.bucket.get newKey)
        [g'.shared.bucket.get oldKey, g'.shared.bucket.get newKey])
      (step g (.begin files (.rename oldpath newpath))) events := by
  have hseen : g.shared.seen [oldKey, newKey] = [some o, g.shared.bucket.get newKey] := by
    rw [World.seen, List.map_cons, List.map_cons, List.map_nil, ho]
  have hstart : Pool.Guarded World.handle (World.seen [oldKey, newKey])
      (Renaming o (g.shared.bucket.get newKey)) g.threads.length
      (step g (.begin files (.rename oldpath newpath))) := by
    refine .spawn_guards (fun p hp => (hg p hp).spares) ?_
    rw [hseen]
    exact Prog.guards_bind (guards_rename hkeys hne o _) fun _ _ hy => hy
  exact throughout_of_eachStep
    (I := Pool.Guarded World.handle (World.seen [oldKey, newKey])
      (Renaming o (g.shared.bucket.get newKey)) g.threads.length)
    (fun _ _ hg he => guarded_step hg he) (fun _ h => h.holds) hstart hevents

/-- `f` is renamed to `g`; the process is restarted after the copy, while `h` is created. -/
theorem Gateway.rename_three_states_restart :
    let events := [.begin ∅ (.mkdirAll (gs "/h")), .call 1, .call 0, .call 0, .restart none none]
    Throughout step
      (fun g' => Renaming ⟨[1], ∅, 0, []⟩ none
        [g'.shared.bucket.get (gs "f"), g'.shared.bucket.get (gs "g")])
      (step serving (.begin ∅ (.rename (gs "/f") (gs "/g")))) events := by
  intro events
  have hkeys : RenameKeys (gs "/f") (gs "/g") (gs "f", gs "g") := Or.inl rfl
  have hf : serving.shared.bucket.get (gs "f") = some ⟨[1], ∅, 0, []⟩ := rfl
  refine rename_three_states hkeys (by decide) hf (fun _ hp => by cases hp) ∅
    ⟨?_, trivial, trivial, trivial, trivial, trivial⟩
  show ∀ k ∈ [gs "f", gs "g"], k ∉ Op.footprint ∅ (.mkdirAll (gs "/h"))
  decide

end S3Gateway
