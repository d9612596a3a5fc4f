import S3Gateway.Lib.Cell
import S3Gateway.Lib.Pool
import S3Gateway.Lib.Run
import S3Gateway.S3fs.XattrKeys

/-!
# Concurrent changes of attributes

`Chmod`, `Chown`, `SetXattr` and `RemoveXattr` read an object's metadata with
`HeadObject`, change their own attribute, and write all of it back with
`CopyObjectWithMetadata`. Any number of them run in a pool, and other calls may come
between the two.

The object's metadata are the shared map of a `Cell`, and each operation is a party of
it (`Stage`): a step of the pool is a step of the cell (`Sim.step`). So no update is
lost as long as no copy changes more than its operation touches, and if every operation
has something to change, only then (`attribute_updates_iff`).
-/

namespace S3Gateway

open Lib

/-! ## Operations and what they change -/

inductive Attribute where
  | mode
  | uid
  | gid
  | xattr (name : GoString)
deriving DecidableEq

/-- The metadata keys an attribute may be stored under. -/
def Attribute.Owns : Attribute → GoString → Prop
  | .mode, key => key = metaKeyMode
  | .uid, key => key = metaKeyUID
  | .gid, key => key = metaKeyGID
  | .xattr name, key => equalFold key (xattrSlot name) = true

/-- An operation that changes attributes of an object. -/
inductive AttrOp where
  | chmod (path : GoString) (mode : FileMode)
  | chown (path : GoString) (uid gid : Int)
  | xattr (path : GoString) (op : XattrOp)

namespace AttrOp

def program : AttrOp → Gw (Except GoError Unit)
  | .chmod path mode => S3Gateway.chmod path mode
  | .chown path uid gid => S3Gateway.chown path uid gid
  | .xattr path op => op.program path

/-- The attributes it touches. -/
def attributes : AttrOp → List Attribute
  | .chmod .. => [.mode]
  | .chown _ uid gid => (if uid ≥ 0 then [.uid] else []) ++ if gid ≥ 0 then [.gid] else []
  | .xattr _ op => [.xattr op.name]

/-- The operations touch different attributes. -/
def Apart (op op' : AttrOp) : Prop := ∀ a ∈ op.attributes, a ∉ op'.attributes

/-- The metadata entries it sets, and to what. -/
def change : AttrOp → Lib.Change GoString (Option GoString)
  | .chmod _ mode => ⟨(· = metaKeyMode), fun _ => some (formatOctal mode.perm)⟩
  | .chown _ uid gid =>
    ⟨fun key => uid ≥ 0 ∧ key = metaKeyUID ∨ gid ≥ 0 ∧ key = metaKeyGID,
      fun key => some (itoa (if key = metaKeyUID then uid else gid))⟩
  | .xattr _ (.set name value _) => ⟨(· = xattrSlot name), fun _ => some (base64Encode value)⟩
  | .xattr _ (.remove name) => ⟨fun key => equalFold key (xattrSlot name) = true, fun _ => none⟩

/-- The metadata contain the effect of the operation. -/
def Effect (op : AttrOp) (userMeta : Metadata) : Prop := op.change.In fun key => userMeta.lookup key

end AttrOp

/-- Slots of different names do not fold to each other. -/
theorem eq_of_xattrSlot_fold {name name' : GoString}
    (h : (xattrSlot name).map toLower = (xattrSlot name').map toLower) : name = name' := by
  rw [xattrSlot, xattrSlot, List.map_append, List.map_append, toLower_hexEncodeToString,
    toLower_hexEncodeToString] at h
  exact hexEncodeToString_injective (List.append_cancel_left h)

/-- A key in the metadata that does not begin like an attribute's is not one's. -/
theorem not_xattr_owns {key name : GoString}
    (hkey : (key.map toLower).take 6 ≠ xattrMetaPrefix.map toLower) :
    ¬ (Attribute.xattr name).Owns key := by
  intro h
  refine hkey ?_
  rw [equalFold_iff.mp h, xattrSlot, List.map_append]
  exact List.take_left' rfl

/-- No key belongs to two attributes. -/
theorem Attribute.Owns.unique {a a' : Attribute} {key : GoString} (h : a.Owns key)
    (h' : a'.Owns key) : a = a' := by
  have hmode : ∀ name, ¬ (Attribute.xattr name).Owns metaKeyMode :=
    fun _ => not_xattr_owns (by decide)
  have huid : ∀ name, ¬ (Attribute.xattr name).Owns metaKeyUID :=
    fun _ => not_xattr_owns (by decide)
  have hgid : ∀ name, ¬ (Attribute.xattr name).Owns metaKeyGID :=
    fun _ => not_xattr_owns (by decide)
  have hne : metaKeyMode ≠ metaKeyUID ∧ metaKeyMode ≠ metaKeyGID ∧ metaKeyUID ≠ metaKeyGID := by
    decide
  cases a <;> cases a'
  case xattr.xattr name name' =>
    exact congrArg Attribute.xattr
      (eq_of_xattrSlot_fold ((equalFold_iff.mp h).symm.trans (equalFold_iff.mp h')))
  case mode.xattr name => exact absurd (h ▸ h') (hmode name)
  case uid.xattr name => exact absurd (h ▸ h') (huid name)
  case gid.xattr name => exact absurd (h ▸ h') (hgid name)
  case xattr.mode name => exact absurd (h' ▸ h) (hmode name)
  case xattr.uid name => exact absurd (h' ▸ h) (huid name)
  case xattr.gid name => exact absurd (h' ▸ h) (hgid name)
  case mode.uid => exact absurd (h.symm.trans h') hne.1
  case uid.mode => exact absurd (h'.symm.trans h) hne.1
  case mode.gid => exact absurd (h.symm.trans h') hne.2.1
  case gid.mode => exact absurd (h'.symm.trans h) hne.2.1
  case uid.gid => exact absurd (h.symm.trans h') hne.2.2
  case gid.uid => exact absurd (h'.symm.trans h) hne.2.2
  all_goals rfl

/-- A key that the operation sets belongs to one of its attributes. -/
theorem AttrOp.owns_of_touches {op : AttrOp} {key : GoString} (h : op.change.touches key) :
    ∃ a ∈ op.attributes, a.Owns key := by
  cases op with
  | chmod path mode => exact ⟨.mode, List.mem_singleton.mpr rfl, h⟩
  | chown path uid gid =>
    rcases h with ⟨huid, hkey⟩ | ⟨hgid, hkey⟩
    · exact ⟨.uid, by simp [attributes, huid], hkey⟩
    · exact ⟨.gid, by simp [attributes, hgid], hkey⟩
  | xattr path op =>
    refine ⟨.xattr op.name, List.mem_singleton.mpr rfl, ?_⟩
    cases op with
    | set name value option =>
      rw [show key = xattrSlot name from h]
      exact equalFold_iff.mpr rfl
    | remove name => exact h

theorem AttrOp.Apart.change {op op' : AttrOp} (h : op.Apart op') : op.change.Apart op'.change := by
  intro key hkey hkey'
  obtain ⟨a, ha, howns⟩ := owns_of_touches hkey
  obtain ⟨a', ha', howns'⟩ := owns_of_touches hkey'
  exact h a ha (howns.unique howns' ▸ ha')

/-! ## The programs -/

/-- Having found the object under `key`, the program gives up or makes its change in the
metadata and writes them back. -/
def Found (u : Lib.Change GoString (Option GoString)) (key : GoString) (info : ObjectInfo)
    (p : Gw (Except GoError Unit)) : Prop :=
  (∃ err, p = .ret (.error err)) ∨
    ∃ what userMeta, p = replaceMetadata what key userMeta ∧
      u.Makes (fun k => info.userMetadata.lookup k) fun k => userMeta.lookup k

/-- The program has not read the metadata yet. -/
inductive Reading (u : Lib.Change GoString (Option GoString)) : Gw (Except GoError Unit) → Prop where
  | error (err : GoError) : Reading u (.ret (.error err))
  | head {key : GoString} {k : Except GoError ObjectInfo → Gw (Except GoError Unit)}
      (hok : ∀ info, Found u key info (k (.ok info))) (herr : ∀ err, Reading u (k (.error err))) :
      Reading u (.op (.headObject key) k)

theorem reading_headPath {u : Lib.Change GoString (Option GoString)} (path : GoString)
    {f : Option (GoString × ObjectInfo) → Gw (Except GoError Unit)}
    (hnone : f none = .ret (.error .errNotExist))
    (hsome : ∀ key info, Found u key info (f (some (key, info)))) : Reading u (headPath path >>= f) :=
  have hmissing : Reading u (f none) := hnone ▸ .error .errNotExist
  .head (fun info => hsome _ info) fun _ => .head (fun info => hsome _ info) fun _ => hmissing

theorem makes_insert (userMeta : Metadata) (key v : GoString) :
    Lib.Change.Makes ⟨(· = key), fun _ => some v⟩ (fun k => userMeta.lookup k)
      fun k => (userMeta.insert key v).lookup k :=
  .of_ite fun k => GoMap.lookup_insert_ite userMeta key k v

theorem lookup_insert_of {userMeta : Metadata} {φ : Prop} [Decidable φ] {key v k : GoString} :
    (if φ then userMeta.insert key v else userMeta).lookup k
      = if φ ∧ k = key then some v else userMeta.lookup k := by
  by_cases hφ : φ
  · simp only [hφ, if_true, true_and, GoMap.lookup_insert_ite]
  · simp only [hφ, if_false, false_and]

theorem makes_chown (path : GoString) (uid gid : Int) (userMeta : Metadata) :
    (AttrOp.chown path uid gid).change.Makes (fun k => userMeta.lookup k) fun k =>
      (if gid ≥ 0 then
        (if uid ≥ 0 then userMeta.insert metaKeyUID (itoa uid) else userMeta).insert metaKeyGID
          (itoa gid)
      else if uid ≥ 0 then userMeta.insert metaKeyUID (itoa uid) else userMeta).lookup k := by
  have hne : metaKeyGID ≠ metaKeyUID := by decide
  refine .of_ite fun k => ?_
  rw [lookup_insert_of, lookup_insert_of]
  by_cases huid : k = metaKeyUID
  · subst huid
    simp [hne.symm]
  · simp [huid]

theorem reading_program (op : AttrOp) : Reading op.change op.program := by
  cases op with
  | chmod path mode =>
    exact reading_headPath path rfl fun key info => Or.inr ⟨_, _, rfl, makes_insert ..⟩
  | chown path uid gid =>
    exact reading_headPath path rfl fun key info => Or.inr ⟨_, _, rfl, makes_chown path uid gid _⟩
  | xattr path op =>
    cases op with
    | set name value option =>
      unfold AttrOp.program XattrOp.program setXattr
      dsimp only
      split
      · exact .error _
      · split
        · exact .error _
        · next metaKey hkey =>
          obtain ⟨-, rfl⟩ := xattrMetaKey_ok hkey
          refine reading_headPath path rfl fun key info => ?_
          dsimp only
          split
          · exact Or.inl ⟨_, rfl⟩
          · split
            · exact Or.inl ⟨_, rfl⟩
            · exact Or.inr ⟨_, _, rfl, makes_insert ..⟩
    | remove name =>
      unfold AttrOp.program XattrOp.program removeXattr
      dsimp only
      split
      · exact .error _
      · next metaKey hkey =>
        obtain ⟨-, rfl⟩ := xattrMetaKey_ok hkey
        refine reading_headPath path rfl fun key info => ?_
        dsimp only
        split
        · exact Or.inl ⟨_, rfl⟩
        · exact Or.inr ⟨_, (XattrOp.remove name).rewrite info.userMetadata, rfl,
            .of_ite fun k => lookup_rewrite_remove info.userMetadata name k⟩

/-! ## Programs as parties of a cell -/

/-- How far a program is that changes the object under `key`. -/
inductive Stage (u : Lib.Change GoString (Option GoString)) (key : GoString) :
    Gw (Except GoError Unit) → Phase GoString (Option GoString) → Prop where
  | reading {p : Gw (Except GoError Unit)} (h : Reading u p) : Stage u key p .idle
  /-- It is going to write to another object. -/
  | astray {key' what : GoString} {userMeta : Metadata} (hne : key' ≠ key) :
      Stage u key (replaceMetadata what key' userMeta) .idle
  | writing {what : GoString} {userMeta : Metadata} :
      Stage u key (replaceMetadata what key userMeta) (.holding fun k => userMeta.lookup k)
  | wrote {key' : GoString} : Stage u key (cacheInvalidate key' >>= fun _ => pure (.ok ())) .done
  | returned : Stage u key (.ret (.ok ())) .done
  | failed {err : GoError} : Stage u key (.ret (.error err)) .failed

/-- The object and the metadata that the call copies, if it is a `CopyObjectWithMetadata`. -/
def Eff.copied {β : Type} : Eff β → Option (GoString × Metadata)
  | .copyObjectWithMetadata key userMeta => some (key, userMeta)
  | _ => none

/-- The copy fails and changes nothing, or gives the object its metadata. -/
theorem handle_copyObjectWithMetadata {w : World} {key : GoString} {o : Object}
    (ho : w.bucket.get key = some o) (userMeta : Metadata) :
    (∃ err, (World.handle (.copyObjectWithMetadata key userMeta) w).1 = .error err ∧
        (World.handle (.copyObjectWithMetadata key userMeta) w).2.bucket.get key = some o) ∨
      (World.handle (.copyObjectWithMetadata key userMeta) w).1 = .ok () ∧
        ∃ o', (World.handle (.copyObjectWithMetadata key userMeta) w).2.bucket.get key = some o' ∧
          o'.userMetadata = userMeta := by
  unfold World.handle World.mutate
  dsimp only
  cases w.outcome.fault.callError with
  | some err => exact Or.inl ⟨err, rfl, ho⟩
  | none =>
    simp only [World.begin_bucket, Bucket.copyObjectWithMetadata, ho,
      Bucket.putObject_of_ne _ (Bucket.ne_nil_of_get ho)]
    exact Or.inr ⟨trivial, _, Bucket.get_put_self .., rfl⟩

section Step

variable {u : Nat → Lib.Change GoString (Option GoString)} {key : GoString} {w : World} {o : Object}
  {c : Cell Nat GoString (Option GoString)} {i : Nat} {β : Type} {e : Eff β}
  {k : β → Gw (Except GoError Unit)}

/-- The cell after a step of party `i`: its map is the metadata of the object, the
program is at the stage that the cell says, and the others are where they were. -/
structure StageStep (u : Nat → Lib.Change GoString (Option GoString)) (key : GoString)
    (c : Cell Nat GoString (Option GoString)) (i : Nat) (b : Bucket)
    (p : Gw (Except GoError Unit)) (c' : Cell Nat GoString (Option GoString)) : Prop where
  step : Cell.Step u i c c'
  object : ∃ o, b.get key = some o ∧ c'.shared = fun k => o.userMetadata.lookup k
  stage : Stage (u i) key p (c'.phase i)
  others : ∀ j, j ≠ i → c'.phase j = c.phase j

theorem Stage.step (h : Stage (u i) key (.op e k) (c.phase i))
    (hon : ∀ key' userMeta, e.copied = some (key', userMeta) → key' = key)
    (ho : w.bucket.get key = some o) (hc : c.shared = fun k => o.userMetadata.lookup k) :
    ∃ c', StageStep u key c i (World.handle e w).2.bucket (k (World.handle e w).1) c' := by
  generalize hp : Prog.op e k = p at h
  generalize hph : c.phase i = ph at h
  cases h with
  | reading h =>
    have hidle : ∀ copy, c.phase i ≠ .holding copy := by
      rw [hph]
      nofun
    cases h with
    | error err => cases hp
    | @head key' k' hok herr =>
      cases hp
      have hb : (World.handle (.headObject key') w).2.bucket.get key = some o :=
        (congrArg (Bucket.get · key) (World.handle_bucket rfl w)).trans ho
      cases hr : (World.handle (.headObject key') w).1 with
      | error err => exact ⟨c, .stutter hidle, ⟨o, hb, hc⟩, hph ▸ .reading (herr err), fun _ _ => rfl⟩
      | ok info =>
        rcases hok info with ⟨err, heq⟩ | ⟨what, userMeta, heq, hmakes⟩
        · exact ⟨c, .stutter hidle, ⟨o, hb, hc⟩, by rw [heq, hph]; exact .reading (.error err),
            fun _ _ => rfl⟩
        · by_cases hkey : key' = key
          · subst hkey
            obtain ⟨o', ho', -, -, -, -, hmeta⟩ := Bucket.headObject_ok (World.headObject_ok hr)
            rw [ho] at ho'
            cases ho'
            rw [hmeta, ← hc] at hmakes
            refine ⟨_, .read hph hmakes, ⟨o, hb, hc⟩, ?_, fun j hj => Function.update_of_ne hj ..⟩
            rw [heq]
            simp only [Function.update_self]
            exact .writing
          · exact ⟨c, .stutter hidle, ⟨o, hb, hc⟩, by rw [heq, hph]; exact .astray hkey,
              fun _ _ => rfl⟩
  | astray hne =>
    cases hp
    exact absurd (hon _ _ rfl) hne
  | @writing what userMeta =>
    cases hp
    rcases handle_copyObjectWithMetadata ho userMeta with ⟨err, hr, hb⟩ | ⟨hr, o', hb, hmeta⟩
    · refine ⟨_, .refused hph, ⟨o, hb, hc⟩, ?_, fun j hj => Function.update_of_ne hj ..⟩
      rw [hr]
      simp only [Function.update_self]
      exact .failed
    · refine ⟨_, .write hph, ⟨o', hb, by rw [hmeta]⟩, ?_, fun j hj => Function.update_of_ne hj ..⟩
      rw [hr]
      simp only [Function.update_self]
      exact .wrote
  | @wrote key' =>
    cases hp
    have hb := (congrArg (Bucket.get · key)
      (World.handle_bucket (e := .invalidate key') rfl w)).trans ho
    exact ⟨c, .stutter (by rw [hph]; nofun), ⟨o, hb, hc⟩, hph ▸ .returned, fun _ _ => rfl⟩
  | returned => cases hp
  | failed => cases hp

end Step

/-! ## The pool as a cell -/

/-- What operation `i` changes. -/
def changeOf (ops : List AttrOp) (i : Nat) : Lib.Change GoString (Option GoString) :=
  (ops[i]?.map AttrOp.change).getD ⟨fun _ => False, fun _ => none⟩

/-- The operations, each at some call of its program, and the services. -/
abbrev Race := Pool Eff World (Except GoError Unit)

/-- If the operation is about to write metadata, it is to the object under `key`. -/
def OnObject (key : GoString) (s : Race) (i : Nat) : Prop :=
  s.Next (fun _ e _ => ∀ key' userMeta, e.copied = some (key', userMeta) → key' = key) i

/-- If the operation is about to write metadata to the object, they are the object's
present ones but for what the operation touches: the others have not changed them since
it read them. -/
def KeepsOthers (key : GoString) (ops : List AttrOp) (s : Race) (i : Nat) : Prop :=
  s.Next (fun _ e w => ∀ userMeta o op, e.copied = some (key, userMeta) →
    w.bucket.get key = some o → ops[i]? = some op →
    ∀ k, ¬ op.change.touches k → userMeta.lookup k = o.userMetadata.lookup k) i

/-- The object's metadata contain the effect of every operation. -/
def AllIn (key : GoString) (ops : List AttrOp) (s : Race) : Prop :=
  ∃ o, s.shared.bucket.get key = some o ∧ ∀ op ∈ ops, op.Effect o.userMetadata

/-- The pool is at the state the cell says. -/
structure Sim (key : GoString) (ops : List AttrOp) (s : Race)
    (c : Cell Nat GoString (Option GoString)) : Prop where
  length : s.threads.length = ops.length
  object : ∃ o, s.shared.bucket.get key = some o ∧ c.shared = fun k => o.userMetadata.lookup k
  stage : ∀ i p, s.threads[i]? = some p → Stage (changeOf ops i) key p (c.phase i)
  absent : ∀ i, s.threads[i]? = none → c.phase i = .idle

section Sim

variable {key : GoString} {ops : List AttrOp} {s : Race}
  {c : Cell Nat GoString (Option GoString)} {i : Nat}

theorem changeOf_eq {op : AttrOp} (h : ops[i]? = some op) : changeOf ops i = op.change := by
  rw [changeOf, h]
  rfl

theorem apart_changeOf (h : ops.Pairwise AttrOp.Apart) (i j : Nat) (hij : i ≠ j) :
    (changeOf ops i).Apart (changeOf ops j) := by
  unfold changeOf
  cases hi : ops[i]? with
  | none => exact fun _ hk => hk.elim
  | some op =>
    cases hj : ops[j]? with
    | none => exact fun _ _ hk => hk.elim
    | some op' =>
      obtain ⟨hilt, rfl⟩ := List.getElem?_eq_some_iff.mp hi
      obtain ⟨hjlt, rfl⟩ := List.getElem?_eq_some_iff.mp hj
      rcases Nat.lt_or_gt_of_ne hij with hlt | hlt
      · exact (List.pairwise_iff_getElem.mp h i j hilt hjlt hlt).change
      · exact fun k hk hk' => (List.pairwise_iff_getElem.mp h j i hjlt hilt hlt).change k hk' hk

/-- Where the pool starts. -/
theorem sim_start {w : World} {o : Object} (ho : w.bucket.get key = some o) (ops : List AttrOp) :
    Sim key ops ⟨w, ops.map AttrOp.program⟩ ⟨fun k => o.userMetadata.lookup k, fun _ => .idle⟩ where
  length := List.length_map ..
  object := ⟨o, ho, rfl⟩
  stage i p hp := by
    obtain ⟨op, hop, rfl⟩ := Option.map_eq_some_iff.mp ((List.getElem?_map ..).symm.trans hp)
    rw [changeOf_eq hop]
    exact .reading (reading_program op)
  absent _ _ := rfl

theorem Stage.of_holding {u : Lib.Change GoString (Option GoString)} {p : Gw (Except GoError Unit)}
    {copy : GoString → Option GoString} (h : Stage u key p (.holding copy)) :
    ∃ what userMeta, p = replaceMetadata what key userMeta ∧ copy = fun k => userMeta.lookup k := by
  cases h
  exact ⟨_, _, rfl, rfl⟩

theorem Stage.holding_of_copied {u : Lib.Change GoString (Option GoString)}
    {ph : Phase GoString (Option GoString)} {β : Type} {e : Eff β}
    {k : β → Gw (Except GoError Unit)} (h : Stage u key (.op e k) ph) {userMeta : Metadata}
    (he : e.copied = some (key, userMeta)) : ph = .holding fun k => userMeta.lookup k := by
  generalize hp : Prog.op e k = p at h
  cases h with
  | reading h =>
    cases h with
    | error err => cases hp
    | head =>
      cases hp
      cases he
  | astray hne =>
    cases hp
    cases he
    exact absurd rfl hne
  | writing =>
    cases hp
    cases he
    rfl
  | wrote =>
    cases hp
    cases he
  | returned => cases hp
  | failed => cases hp

theorem Stage.done_of_ok {u : Lib.Change GoString (Option GoString)}
    {ph : Phase GoString (Option GoString)} (h : Stage u key (.ret (.ok ())) ph) : ph = .done := by
  generalize hp : Prog.ret (Except.ok ()) = p at h
  cases h with
  | reading h => cases h <;> cases hp
  | astray => cases hp
  | writing => cases hp
  | wrote => rfl
  | returned => rfl
  | failed => cases hp

namespace Sim

/-- A party that holds a copy is an operation about to write it. -/
theorem of_holding (h : Sim key ops s c) {copy : GoString → Option GoString}
    (hcopy : c.phase i = .holding copy) :
    ∃ op what userMeta, ops[i]? = some op ∧ copy = (fun k => userMeta.lookup k) ∧
      s.threads[i]? = some (replaceMetadata what key userMeta) := by
  cases hp : s.threads[i]? with
  | none =>
    rw [h.absent i hp] at hcopy
    cases hcopy
  | some p =>
    have hi : i < ops.length := h.length ▸ (List.getElem?_eq_some_iff.mp hp).1
    obtain ⟨what, userMeta, rfl, hcopy⟩ := Stage.of_holding (hcopy ▸ h.stage i p hp)
    exact ⟨ops[i], what, userMeta, List.getElem?_eq_getElem hi, hcopy, rfl⟩

/-- A step of the pool is a step of the cell. -/
theorem step (h : Sim key ops s c) (hon : OnObject key s i) :
    ∃ c', Cell.Step (changeOf ops) i c c' ∧ Sim key ops (s.step World.handle i) c' := by
  rcases s.step_cases World.handle i with ⟨heq, hno⟩ | ⟨β, e, k, hi, heq⟩
  · rw [heq]
    refine ⟨c, .stutter fun copy hcopy => ?_, h⟩
    obtain ⟨-, what, userMeta, -, -, hp⟩ := h.of_holding hcopy
    exact hno _ _ _ hp
  · obtain ⟨o, ho, hc⟩ := h.object
    obtain ⟨c', hstep, hobject, hstage, hothers⟩ := (h.stage i _ hi).step (hon.of_op hi) ho hc
    rw [heq]
    refine ⟨c', hstep, (List.length_set ..).trans h.length, hobject, fun j p hp => ?_, fun j hj => ?_⟩
    · by_cases hji : j = i
      · subst hji
        rw [List.getElem?_set_self (List.getElem?_eq_some_iff.mp hi).1] at hp
        cases hp
        exact hstage
      · rw [List.getElem?_set_ne (Ne.symm hji)] at hp
        rw [hothers j hji]
        exact h.stage j p hp
    · have hji : j ≠ i := by
        rintro rfl
        rw [List.getElem?_set_self (List.getElem?_eq_some_iff.mp hi).1] at hj
        cases hj
      rw [List.getElem?_set_ne (Ne.symm hji)] at hj
      rw [hothers j hji]
      exact h.absent j hj

/-- The condition on the pool is that of the cell. -/
theorem keepsOthers_iff (h : Sim key ops s c) :
    KeepsOthers key ops s i ↔ c.Fresh (changeOf ops) i := by
  obtain ⟨o, ho, hc⟩ := h.object
  constructor
  · intro hkeeps copy hcopy k hk
    obtain ⟨op, what, userMeta, hop, rfl, hp⟩ := h.of_holding hcopy
    rw [changeOf_eq hop] at hk
    rw [hc]
    exact hkeeps.of_op hp userMeta o op rfl ho hop k hk
  · intro hfresh
    unfold KeepsOthers Pool.Next
    split
    · next e _ hp =>
      intro userMeta o' op he ho' hop k hk
      rw [ho] at ho'
      cases ho'
      rw [← changeOf_eq hop] at hk
      have hfresh := hfresh _ ((h.stage i _ hp).holding_of_copied he) k hk
      rw [hc] at hfresh
      exact hfresh
    · trivial

theorem done_of_nil (h : Sim key ops s c) (hnil : ∀ p ∈ s.threads, p = .ret (.ok ()))
    (hi : i < ops.length) : c.phase i = .done := by
  have hp : s.threads[i]? = some (.ret (.ok ())) := by
    rw [List.getElem?_eq_getElem (h.length ▸ hi), hnil _ (List.getElem_mem _)]
  exact (h.stage i _ hp).done_of_ok

/-- When all have returned nil, the cell has kept all changes exactly if the metadata
contain them. -/
theorem allIn_iff (h : Sim key ops s c) (hnil : ∀ p ∈ s.threads, p = .ret (.ok ())) :
    AllIn key ops s ↔ c.Kept (changeOf ops) := by
  obtain ⟨o, ho, hc⟩ := h.object
  constructor
  · rintro ⟨o', ho', hall⟩ i hi
    rw [ho] at ho'
    cases ho'
    rw [hc]
    cases hop : ops[i]? with
    | none =>
      rw [changeOf, hop]
      exact fun _ hk => hk.elim
    | some op =>
      rw [changeOf_eq hop]
      exact hall op (List.mem_of_getElem? hop)
  · intro hkept
    refine ⟨o, ho, fun op hmem => ?_⟩
    obtain ⟨i, hi, rfl⟩ := List.mem_iff_getElem.mp hmem
    have hin := hkept i (h.done_of_nil hnil hi)
    rw [changeOf_eq (List.getElem?_eq_getElem hi), hc] at hin
    exact hin

theorem not_lost (h : Sim key ops s c) (hnil : ∀ p ∈ s.threads, p = .ret (.ok ()))
    (hkept : c.Kept (changeOf ops)) : ¬ c.Lost (changeOf ops) := by
  rintro (⟨i, hi⟩ | ⟨hlost, -⟩)
  · by_cases hlt : i < ops.length
    · rw [h.done_of_nil hnil hlt] at hi
      cases hi
    · rw [h.absent i (List.getElem?_eq_none (h.length ▸ Nat.le_of_not_lt hlt))] at hi
      cases hi
  · exact hlost hkept

end Sim

end Sim

/-- No attribute update is lost if, whenever an operation writes metadata back, they
differ from the object's present ones only where the operation touches them; that is, if
no other operation has written since it read them. If no operation finds its change made
already, this is the only way that none is lost. -/
theorem attribute_updates_iff {w : World} {key : GoString} {o : Object}
    (ho : w.bucket.get key = some o) (ops : List AttrOp) (hapart : ops.Pairwise AttrOp.Apart)
    (schedule : List Nat)
    (hon : EachStep (Pool.step World.handle) (OnObject key) ⟨w, ops.map AttrOp.program⟩ schedule)
    (hnil : ∀ p ∈ (schedule.foldl (Pool.step World.handle) ⟨w, ops.map AttrOp.program⟩).threads,
      p = .ret (.ok ())) :
    (EachStep (Pool.step World.handle) (KeepsOthers key ops) ⟨w, ops.map AttrOp.program⟩ schedule →
      AllIn key ops (schedule.foldl (Pool.step World.handle) ⟨w, ops.map AttrOp.program⟩)) ∧
    ((∀ op ∈ ops, ¬ op.Effect o.userMetadata) →
      AllIn key ops (schedule.foldl (Pool.step World.handle) ⟨w, ops.map AttrOp.program⟩) →
      EachStep (Pool.step World.handle) (KeepsOthers key ops) ⟨w, ops.map AttrOp.program⟩
        schedule) := by
  let m₀ : GoString → Option GoString := fun k => o.userMetadata.lookup k
  let I : Race → Prop := fun s => ∃ c, Sim key ops s c ∧ c.Traced (changeOf ops) m₀ ∧
    c.Kept (changeOf ops)
  let L : Race → Prop := fun s => ∃ c, Sim key ops s c ∧ c.Lost (changeOf ops)
  have happ := apart_changeOf hapart
  have hstart : I ⟨w, ops.map AttrOp.program⟩ :=
    ⟨_, sim_start ho ops, Cell.traced_start (fun _ => rfl) rfl, Cell.kept_start fun _ => rfl⟩
  have hstep : ∀ s i, I s → OnObject key s i → KeepsOthers key ops s i →
      I (s.step World.handle i) := by
    rintro s i ⟨c, hsim, htraced, hkept⟩ hon hkeeps
    obtain ⟨c', hc, hsim'⟩ := hsim.step hon
    exact ⟨c', hsim', hc.traced htraced, hc.kept happ htraced hkept (hsim.keepsOthers_iff.mp hkeeps)⟩
  refine ⟨fun hkeeps => ?_, fun hnew hall => ?_⟩
  · have hlast : I _ := (throughout_of_eachStep (fun s i hI hC => hstep s i hI hC.1 hC.2)
      (fun _ h => h) hstart (hon.and hkeeps)).last
    obtain ⟨c, hsim, -, hkept⟩ := hlast
    exact (hsim.allIn_iff hnil).mpr hkept
  · refine eachStep_of_unmarked (L := L) hstep ?_ ?_ hstart hon ?_
    · rintro s i ⟨c, hsim, htraced, hkept⟩ hon hstale
      obtain ⟨c', hc, hsim'⟩ := hsim.step hon
      have hstale : ¬ c.Fresh (changeOf ops) i := fun h => hstale (hsim.keepsOthers_iff.mpr h)
      obtain ⟨copy, hcopy⟩ := not_forall.mp hstale
      obtain ⟨op, -, -, hop, -⟩ := hsim.of_holding (Classical.not_imp.mp hcopy).1
      have hnew : ¬ (changeOf ops i).In m₀ := changeOf_eq hop ▸ hnew op (List.mem_of_getElem? hop)
      exact ⟨c', hsim', hc.lost_of_stale happ hnew htraced hkept hstale⟩
    · rintro s i ⟨c, hsim, hlost⟩ hon
      obtain ⟨c', hc, hsim'⟩ := hsim.step hon
      exact ⟨c', hsim', hc.lost happ hlost⟩
    · rintro ⟨c, hsim, hlost⟩
      exact hsim.not_lost hnil ((hsim.allIn_iff hnil).mp hall) hlost

/-- `Chmod` and then `SetXattr`. -/
theorem attribute_updates_in_turn :
    AllIn (gs "f") [.chmod (gs "/f") 0o600, .xattr (gs "/f") (.set (gs "a") [1] 0)]
      ([0, 0, 0, 1, 1, 1].foldl (Pool.step World.handle)
        ⟨.start (.onlyF [1] []), [chmod (gs "/f") 0o600, setXattr (gs "/f") (gs "a") [1] 0]⟩) := by
  have ho : (World.start (.onlyF [1] [])).bucket.get (gs "f") = some ⟨[1], ∅, 0, []⟩ := rfl
  refine (attribute_updates_iff ho [.chmod (gs "/f") 0o600, .xattr (gs "/f") (.set (gs "a") [1] 0)]
    ?_ [0, 0, 0, 1, 1, 1] ?_ ?_).1 ?_
  · simp [AttrOp.Apart, AttrOp.attributes]
  · refine ⟨nofun, ?_, nofun, nofun, ?_, nofun, trivial⟩
    · intro key' userMeta h
      cases h
      rfl
    · intro key' userMeta h
      cases h
      rfl
  · exact List.forall_mem_cons.mpr ⟨rfl, List.forall_mem_cons.mpr ⟨rfl, nofun⟩⟩
  · refine ⟨nofun, ?_, nofun, nofun, ?_, nofun, trivial⟩
    · intro userMeta o op hm ho hop k hk
      cases hm
      cases ho
      cases hop
      exact (makes_insert ..).outside k hk
    · intro userMeta o op hm ho hop k hk
      cases hm
      cases ho
      cases hop
      exact (makes_insert ..).outside k hk

/-- Two operations that read before either writes: both return nil, and the mode that
`Chmod` set is gone. -/
theorem attribute_update_lost :
    let s := [0, 1, 0, 1, 0, 1].foldl (Pool.step World.handle)
      ⟨.start (.onlyF [1] []), [chmod (gs "/f") 0o600, chown (gs "/f") 5 (-1)]⟩
    s.threads = [.ret (.ok ()), .ret (.ok ())] ∧
      (s.shared.bucket.get (gs "f")).map (fun o =>
        (o.userMetadata.lookup metaKeyMode, o.userMetadata.lookup metaKeyUID))
          = some (none, some (gs "5")) :=
  ⟨rfl, by decide⟩

end S3Gateway
