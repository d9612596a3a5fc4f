import S3Gateway.Path

/-!
# The path mapping is canonical

Every operation chooses its keys with `s3KeyFromPath` and `s3DirKey`, so the traversal
protection of the gateway is a property of these two functions alone.

`resolve` says what a rooted path means: starting at the root, each element is followed
in turn, `..` leads to the parent, and the parent of the root is the root. It knows
nothing of `filepath.Clean` and of the second check for `..`.

`s3KeyFromPath_canonical`: the key of any path is made of names, it is a fixed point, it
is what `resolve` finds for rooted paths, and keys correspond to directory keys.
-/

namespace S3Gateway

/-! ## Lexical resolution -/

/-- Following one path element from the directory with the components `dir`. -/
def enter (dir : List GoString) (part : GoString) : List GoString :=
  if part = [] ∨ part = gs "." then dir
  else if part = gs ".." then dir.dropLast
  else dir ++ [part]

/-- The components of the place a rooted path leads to. -/
def resolve (path : GoString) : List GoString := (splitSlash path).foldl enter []

example : resolve (gs "/a/../../b/.//c/") = [gs "b", gs "c"] := by decide

/-- A step of `filepath.Clean` on a rooted path follows the element. -/
theorem reverse_cleanElem {kept : List GoString} (hkept : ∀ c ∈ kept, c ≠ gs "..")
    (part : GoString) : (cleanElem true kept part).reverse = enter kept.reverse part := by
  unfold cleanElem enter
  split
  · rfl
  · split
    · cases kept with
      | nil => rfl
      | cons last rest =>
        dsimp only
        rw [if_neg (hkept last List.mem_cons_self), List.reverse_cons, List.dropLast_concat]
    · rw [List.reverse_cons]

theorem reverse_foldl_cleanElem (parts : List GoString) {kept : List GoString}
    (hkept : ∀ c ∈ kept, c ≠ gs "." ∧ c ≠ gs "..") :
    (parts.foldl (cleanElem true) kept).reverse = parts.foldl enter kept.reverse := by
  induction parts generalizing kept with
  | nil => rfl
  | cons part parts ih =>
    rw [List.foldl_cons, List.foldl_cons, ← reverse_cleanElem (fun c hc => (hkept c hc).2) part]
    exact ih (dots_notMem_foldl_cleanElem [part] kept hkept)

/-- `filepath.Clean` resolves rooted paths. -/
theorem cleanElems_rooted {path : GoString} (hroot : path.head? = some slash) :
    cleanElems path = resolve path := by
  rw [cleanElems, hroot]
  exact reverse_foldl_cleanElem (splitSlash path) (by simp)

/-! ## Keys are made of names -/

/-- `filepath.Clean` keeps no `.`, not even of a relative path. -/
theorem dot_notMem_foldl_cleanElem (rooted : Bool) (parts : List GoString)
    {kept : List GoString} (hkept : gs "." ∉ kept) :
    gs "." ∉ parts.foldl (cleanElem rooted) kept := by
  induction parts generalizing kept with
  | nil => exact hkept
  | cons part parts ih =>
    refine ih fun hc => ?_
    unfold cleanElem at hc
    split at hc
    · exact hkept hc
    · next hpart =>
      have hcons : gs "." ∉ part :: kept := by
        intro hmem
        rcases List.mem_cons.mp hmem with heq | hmem
        · exact hpart (Or.inr heq.symm)
        · exact hkept hmem
      split at hc
      · next hdd =>
        split at hc
        · split at hc
          · cases hc
          · rw [hdd] at hc
            exact absurd hc (by decide)
        · split at hc
          · exact hcons hc
          · exact hkept (List.mem_cons_of_mem _ hc)
      · exact hcons hc

/-- The key of a path is the root key or names joined by slashes. -/
theorem s3KeyFromPath_names (path : GoString) :
    ∃ cs, (∀ c ∈ cs, IsName c) ∧ s3KeyFromPath path = [slash].intercalate cs := by
  unfold s3KeyFromPath
  dsimp only
  split
  · exact ⟨[], by simp, rfl⟩
  · next hdot =>
    split
    · exact ⟨[], by simp, rfl⟩
    · next hdd =>
      have htrim := (trimPrefix_clean path).resolve_right hdot
      refine ⟨cleanElems path, fun c hc => ?_, htrim⟩
      -- the second check looks at the elements `filepath.Clean` kept
      have hsplit : splitSlash ([slash].intercalate (cleanElems path)) = cleanElems path :=
        List.splitOn_intercalate slash (fun d hd => (isComponent_of_mem_cleanElems hd).2)
          (List.ne_nil_of_mem hc)
      rw [htrim, hsplit] at hdd
      refine ⟨isComponent_of_mem_cleanElems hc, fun h => ?_, fun h => hdd (h ▸ hc)⟩
      have hno := dot_notMem_foldl_cleanElem (path.head? == some slash) (splitSlash path)
        List.not_mem_nil
      exact hno (List.mem_reverse.mp (h ▸ hc))

theorem head_intercalate_names {cs : List GoString} (hcs : ∀ c ∈ cs, IsName c) :
    ([slash].intercalate cs).head? ≠ some slash := by
  have htrim := trimPrefix_intercalate fun c hc => (hcs c hc).component
  intro hhead
  obtain ⟨rest, hrest⟩ := List.head?_eq_some_iff.mp hhead
  have hdrop : trimPrefix (slash :: rest) [slash] = rest := by simp [trimPrefix, hasPrefix]
  rw [hrest, hdrop] at htrim
  exact List.ne_cons_self htrim

/-! ## Keys are fixed points -/

/-- `filepath.Clean` keeps all names. -/
theorem foldl_cleanElem_names (rooted : Bool) {cs : List GoString} (hcs : ∀ c ∈ cs, IsName c)
    (kept : List GoString) : cs.foldl (cleanElem rooted) kept = cs.reverse ++ kept := by
  induction cs generalizing kept with
  | nil => rfl
  | cons c cs ih =>
    rw [List.foldl_cons, cleanElem_name rooted kept (hcs c List.mem_cons_self),
      ih fun d hd => hcs d (List.mem_cons_of_mem _ hd), List.reverse_cons, List.append_assoc]
    rfl

theorem foldl_cleanElem_intercalate (rooted : Bool) {cs : List GoString}
    (hcs : ∀ c ∈ cs, IsName c) :
    ((splitSlash ([slash].intercalate cs)).foldl (cleanElem rooted) []).reverse = cs := by
  by_cases hne : cs = []
  · subst hne
    cases rooted <;> decide
  · rw [splitSlash_intercalate hcs hne, foldl_cleanElem_names rooted hcs, List.append_nil,
      List.reverse_reverse]

theorem s3KeyFromPath_slash_names {cs : List GoString} (hcs : ∀ c ∈ cs, IsName c) :
    s3KeyFromPath (slash :: [slash].intercalate cs) = [slash].intercalate cs := by
  rw [s3KeyFromPath_rooted rfl]
  have hsplit : splitSlash (slash :: [slash].intercalate cs)
      = [] :: splitSlash ([slash].intercalate cs) := splitSlash_append_cons [] _
  have helems : cleanElems (slash :: [slash].intercalate cs) = cs := by
    rw [cleanElems, hsplit]
    exact foldl_cleanElem_intercalate true hcs
  rw [helems]

theorem s3KeyFromPath_of_names {cs : List GoString} (hcs : ∀ c ∈ cs, IsName c) :
    s3KeyFromPath ([slash].intercalate cs) = [slash].intercalate cs := by
  by_cases hne : [slash].intercalate cs = []
  · rw [hne]
    decide
  · have hrel : (([slash].intercalate cs).head? == some slash) = false :=
      beq_eq_false_iff_ne.mpr (head_intercalate_names hcs)
    have helems : cleanElems ([slash].intercalate cs) = cs := by
      rw [cleanElems, hrel]
      exact foldl_cleanElem_intercalate false hcs
    have hclean : clean ([slash].intercalate cs) = [slash].intercalate cs := by
      rw [clean, helems, hrel, if_neg (by decide), if_neg hne]
    obtain ⟨hdot, hdd⟩ := intercalate_names hcs
    rw [s3KeyFromPath, hclean, trimPrefix_intercalate fun c hc => (hcs c hc).component,
      if_neg hdot, if_neg hdd]

/-! ## Directory keys -/

/-- A directory key is its own directory key. -/
theorem s3DirKey_idem (path : GoString) :
    s3DirKey (s3DirKey (s3KeyFromPath path)) = s3DirKey (s3KeyFromPath path) := by
  by_cases hne : s3KeyFromPath path = []
  · rw [hne]
    decide
  · obtain ⟨cs, hcs, hkey⟩ := s3KeyFromPath_names path
    rw [s3DirKey_s3KeyFromPath hne, s3DirKey, if_neg (List.concat_ne_nil _ _), if_neg ?_,
      hasSuffixSlash_concat, if_pos rfl]
    rw [splitSlash_append_cons, hkey]
    intro hmem
    rcases List.mem_append.mp hmem with hmem | hmem
    · exact (intercalate_names hcs).2 hmem
    · exact absurd hmem (by decide)

/-- The path mapping is safe and canonical. For every path:

- its key is empty or consists of names joined by slashes, with no slash at either end;
- the key, with or without a leading slash, is mapped to itself;
- the key of a rooted path is the place the path leads to;
- the directory key of a key that is not empty is the key with a slash behind it, is its
  own directory key, and belongs to no other key. -/
theorem s3KeyFromPath_canonical (path : GoString) :
    (∃ cs, (∀ c ∈ cs, IsName c) ∧ s3KeyFromPath path = [slash].intercalate cs) ∧
    (s3KeyFromPath path).head? ≠ some slash ∧ (s3KeyFromPath path).getLast? ≠ some slash ∧
    s3KeyFromPath (s3KeyFromPath path) = s3KeyFromPath path ∧
    s3KeyFromPath (slash :: s3KeyFromPath path) = s3KeyFromPath path ∧
    (path.head? = some slash → s3KeyFromPath path = [slash].intercalate (resolve path)) ∧
    (s3KeyFromPath path ≠ [] →
      s3DirKey (s3KeyFromPath path) = s3KeyFromPath path ++ [slash] ∧
      s3DirKey (s3DirKey (s3KeyFromPath path)) = s3DirKey (s3KeyFromPath path) ∧
      ∀ path', s3KeyFromPath path' ≠ [] →
        s3DirKey (s3KeyFromPath path') = s3DirKey (s3KeyFromPath path) →
        s3KeyFromPath path' = s3KeyFromPath path) := by
  obtain ⟨cs, hcs, hkey⟩ := s3KeyFromPath_names path
  refine ⟨⟨cs, hcs, hkey⟩, ?_, ?_, ?_, ?_, fun hroot => ?_, fun hne => ⟨?_, ?_, ?_⟩⟩
  · rw [hkey]
    exact head_intercalate_names hcs
  · have hlast := hasSuffixSlash_s3KeyFromPath path
    rwa [hasSuffixSlash, beq_eq_false_iff_ne] at hlast
  · rw [hkey]
    exact s3KeyFromPath_of_names hcs
  · rw [hkey]
    exact s3KeyFromPath_slash_names hcs
  · rw [s3KeyFromPath_rooted hroot, cleanElems_rooted hroot]
  · exact s3DirKey_s3KeyFromPath hne
  · exact s3DirKey_idem path
  · intro path' hne' heq
    rw [s3DirKey_s3KeyFromPath hne', s3DirKey_s3KeyFromPath hne] at heq
    exact List.append_cancel_right heq

end S3Gateway
