import Mathlib

/-!
# Strings, paths and S3 keys

Go strings are byte sequences, so a `GoString` is a list of bytes and every
string operation below works byte by byte, as the `strings` package does on the
ASCII separators the gateway looks for.

The gateway addresses objects in three vocabularies: POSIX paths (what clients
name), S3 keys (`foo/bar.txt`, and `foo/` for directory markers) and listing
prefixes (the directory part of a key). The functions between them are those of
`internal/s3fs/file.go` and `internal/s3fs/cache_integration.go`.

The lemmas describe keys by their path components: `dirPrefix cs` is the prefix
of the directory reached through the components `cs`, a file key is
`dirPrefix cs ++ c`, and its directory key is `dirPrefix (cs ++ [c])`.
-/

namespace S3Gateway

/-- A Go string: a sequence of bytes. -/
abbrev GoString := List UInt8

/-- The Go string of an ASCII literal. -/
def gs (s : String) : GoString := s.toList.map Char.toUInt8

/-- The byte `/`. -/
def slash : UInt8 := 47

/-! ## Package `strings` -/

/-- `strings.HasPrefix`. -/
def hasPrefix (s pre : GoString) : Bool := pre.isPrefixOf s

/-- `strings.HasSuffix(s, "/")`. -/
def hasSuffixSlash (s : GoString) : Bool := s.getLast? == some slash

/-- `strings.TrimPrefix`. -/
def trimPrefix (s pre : GoString) : GoString :=
  if hasPrefix s pre then s.drop pre.length else s

/-- `strings.TrimSuffix(s, "/")`. -/
def trimSuffixSlash (s : GoString) : GoString :=
  if hasSuffixSlash s then s.dropLast else s

/-- `strings.Split(s, "/")`. -/
def splitSlash (s : GoString) : List GoString := s.splitOn slash

/-- `s[:idx+1]` for the index `idx` of the last `/`, and `""` without one. -/
def uptoLastSlash (s : GoString) : GoString := s.rdropWhile (· != slash)

/-- `s[idx+1:]` for the index `idx` of the last `/`, and `s` without one. -/
def afterLastSlash (s : GoString) : GoString := s.rtakeWhile (· != slash)

/-! ## `filepath.Clean` -/

/-- One path element of `filepath.Clean`: empty and `.` elements vanish, `..`
removes the element before it, except that it is kept at the start of a relative
path and dropped at the start of a rooted one. The elements kept so far are in
reverse order. -/
def cleanElem (rooted : Bool) (kept : List GoString) (part : GoString) : List GoString :=
  if part = [] ∨ part = gs "." then kept
  else if part = gs ".." then
    match kept with
    | [] => if rooted then [] else [part]
    | last :: rest => if last = gs ".." then part :: kept else rest
  else part :: kept

/-- The elements `filepath.Clean` keeps of a path. -/
def cleanElems (path : GoString) : List GoString :=
  ((splitSlash path).foldl (cleanElem (path.head? == some slash)) []).reverse

/-- `filepath.Clean` (Unix). -/
def clean (path : GoString) : GoString :=
  let body := [slash].intercalate (cleanElems path)
  if path.head? == some slash then slash :: body
  else if body = [] then gs "." else body

/-! ## Paths to keys -/

/-- `s3KeyFromPath`: the key of a path, `""` for the root and for paths that
would leave it. -/
def s3KeyFromPath (path : GoString) : GoString :=
  let cleaned := trimPrefix (clean path) [slash]
  if cleaned = gs "." then []
  else if gs ".." ∈ splitSlash cleaned then []
  else cleaned

/-- `s3DirKey`: the key with a trailing slash. -/
def s3DirKey (key : GoString) : GoString :=
  if key = [] then []
  else if gs ".." ∈ splitSlash key then []
  else if hasSuffixSlash key then key else key ++ [slash]

/-- `nameFromPath`. -/
def nameFromPath (path : GoString) : GoString := afterLastSlash (trimSuffixSlash path)

/-- `parentPrefix`, as both `internal/s3fs` and `internal/cache` define it. -/
def parentPrefix (s3Key : GoString) : GoString := uptoLastSlash (trimSuffixSlash s3Key)

/-- `nameFromS3Key`. -/
def nameFromS3Key (s3Key : GoString) : GoString := afterLastSlash (trimSuffixSlash s3Key)

example : s3KeyFromPath (gs "/a//b/./c/../d/") = gs "a/b/d" := by decide

example : parentPrefix (gs "foo/bar/baz.txt") = gs "foo/bar/" ∧ parentPrefix (gs "foo/") = [] := by
  decide

/-! ## Keys by their components -/

/-- A path component: not empty and without a slash. -/
def IsComponent (c : GoString) : Prop := c ≠ [] ∧ slash ∉ c

/-- The prefix of the directory reached through the components `cs`. -/
def dirPrefix (cs : List GoString) : GoString := (cs.map (· ++ [slash])).flatten

@[simp] theorem dirPrefix_nil : dirPrefix [] = [] := rfl

theorem dirPrefix_concat (cs : List GoString) (c : GoString) :
    dirPrefix (cs ++ [c]) = dirPrefix cs ++ c ++ [slash] := by
  simp [dirPrefix]

/-- Joining components with slashes puts all but the last in front as a prefix. -/
theorem intercalate_concat (cs : List GoString) (c : GoString) :
    [slash].intercalate (cs ++ [c]) = dirPrefix cs ++ c := by
  induction cs with
  | nil => simp
  | cons d ds ih =>
    rw [List.cons_append, List.intercalate_cons_of_ne_nil (by simp), ih]
    simp [dirPrefix]

@[simp] theorem hasSuffixSlash_concat (s : GoString) : hasSuffixSlash (s ++ [slash]) = true := by
  simp [hasSuffixSlash]

theorem hasSuffixSlash_append_component (s : GoString) {c : GoString} (hc : IsComponent c) :
    hasSuffixSlash (s ++ c) = false := by
  obtain ⟨hne, hns⟩ := hc
  have hlast : (s ++ c).getLast? = some (c.getLast hne) := by
    rw [List.getLast?_append, List.getLast?_eq_getLast_of_ne_nil hne]
    rfl
  rw [hasSuffixSlash, hlast]
  have : c.getLast hne ≠ slash := fun h => hns (h ▸ List.getLast_mem hne)
  simpa using this

@[simp] theorem trimSuffixSlash_concat (s : GoString) : trimSuffixSlash (s ++ [slash]) = s := by
  simp [trimSuffixSlash]

theorem trimSuffixSlash_append_component (s : GoString) {c : GoString} (hc : IsComponent c) :
    trimSuffixSlash (s ++ c) = s ++ c := by
  rw [trimSuffixSlash, hasSuffixSlash_append_component s hc]
  rfl

/-- A prefix of a directory is empty or ends in a slash, so the part up to the
last slash of `dirPrefix cs ++ c` is `dirPrefix cs`. -/
theorem uptoLastSlash_dirPrefix_append (cs : List GoString) {c : GoString} (hc : slash ∉ c) :
    uptoLastSlash (dirPrefix cs ++ c) = dirPrefix cs := by
  induction c using List.reverseRecOn with
  | nil =>
    rw [List.append_nil]
    rcases List.eq_nil_or_concat cs with rfl | ⟨ds, d, rfl⟩
    · rfl
    · rw [List.concat_eq_append, dirPrefix_concat]
      exact List.rdropWhile_concat_neg _ _ _ (by simp)
  | append_singleton c b ih =>
    have hb : b ≠ slash := fun h => hc (by simp [h])
    rw [← List.append_assoc]
    show List.rdropWhile _ _ = _
    rw [List.rdropWhile_concat_pos _ _ _ (by simpa using hb)]
    exact ih fun h => hc (List.mem_append_left _ h)

/-- The parent prefix of a directory key. -/
theorem parentPrefix_dir (cs : List GoString) {c : GoString} (hc : IsComponent c) :
    parentPrefix (dirPrefix (cs ++ [c])) = dirPrefix cs := by
  rw [dirPrefix_concat, parentPrefix, trimSuffixSlash_concat]
  exact uptoLastSlash_dirPrefix_append cs hc.2

/-! ## What `s3KeyFromPath` returns -/

/-- The components `strings.Split` returns have no slash. -/
theorem slash_notMem_of_mem_splitSlash {s part : GoString} (h : part ∈ splitSlash s) :
    slash ∉ part := by
  unfold splitSlash at h
  induction s generalizing part with
  | nil =>
    rw [List.splitOn_nil, List.mem_singleton] at h
    simp [h]
  | cons b bs ih =>
    rw [List.splitOn_cons_eq_if_modifyHead] at h
    split at h
    · rcases List.mem_cons.mp h with rfl | h
      · exact List.not_mem_nil
      · exact ih h
    · next hb =>
      have hb' : b ≠ slash := by simpa using hb
      cases hsp : bs.splitOn slash with
      | nil => exact absurd hsp (List.splitOn_ne_nil _ _)
      | cons p ps =>
        rw [hsp, List.modifyHead_cons] at h
        rcases List.mem_cons.mp h with rfl | h
        · have hp : slash ∉ p := ih (by rw [hsp]; exact List.mem_cons_self)
          simpa [hp] using fun h => hb' h.symm
        · exact ih (by rw [hsp]; exact List.mem_cons_of_mem _ h)

/-- Every element `filepath.Clean` keeps is a path component. -/
theorem isComponent_of_mem_foldl_cleanElem (rooted : Bool) (parts kept : List GoString)
    (hparts : ∀ part ∈ parts, slash ∉ part) (hkept : ∀ c ∈ kept, IsComponent c) :
    ∀ c ∈ parts.foldl (cleanElem rooted) kept, IsComponent c := by
  induction parts generalizing kept with
  | nil => exact hkept
  | cons part parts ih =>
    refine ih _ (fun p hp => hparts p (List.mem_cons_of_mem _ hp)) ?_
    have hpart : slash ∉ part := hparts part List.mem_cons_self
    intro c hc
    unfold cleanElem at hc
    split at hc
    · exact hkept c hc
    · next hne =>
      have hcomp : IsComponent part := ⟨fun h => hne (Or.inl h), hpart⟩
      have hcons : c ∈ part :: kept → IsComponent c := by
        intro hmem
        rcases List.mem_cons.mp hmem with rfl | hmem
        · exact hcomp
        · exact hkept c hmem
      split at hc
      · split at hc
        · split at hc
          · exact absurd hc List.not_mem_nil
          · rw [List.mem_singleton.mp hc]
            exact hcomp
        · split at hc
          · exact hcons hc
          · exact hkept c (List.mem_cons_of_mem _ hc)
      · exact hcons hc

theorem isComponent_of_mem_cleanElems {path c : GoString} (hc : c ∈ cleanElems path) :
    IsComponent c :=
  isComponent_of_mem_foldl_cleanElem _ _ [] (fun _ h => slash_notMem_of_mem_splitSlash h)
    (by simp) c (List.mem_reverse.mp hc)

/-- Joined components do not start with a slash. -/
theorem trimPrefix_intercalate {ds : List GoString} (hds : ∀ c ∈ ds, IsComponent c) :
    trimPrefix ([slash].intercalate ds) [slash] = [slash].intercalate ds := by
  cases ds with
  | nil => rfl
  | cons d ds =>
    have hd := hds d List.mem_cons_self
    obtain ⟨b, bs, rfl⟩ := List.exists_cons_of_ne_nil hd.1
    have hb : slash ≠ b := fun h => hd.2 (by simp [h])
    cases ds with
    | nil => simp [trimPrefix, hasPrefix, hb]
    | cons e es => simp [trimPrefix, hasPrefix, List.intercalate_cons_cons, hb]

/-- What is left of the cleaned path once a leading slash is gone. -/
theorem trimPrefix_clean (path : GoString) :
    trimPrefix (clean path) [slash] = [slash].intercalate (cleanElems path) ∨
      trimPrefix (clean path) [slash] = gs "." := by
  unfold clean
  dsimp only
  split
  · left
    simp [trimPrefix, hasPrefix]
  · split
    · right
      decide
    · left
      exact trimPrefix_intercalate fun _ hc => isComponent_of_mem_cleanElems hc

/-- `s3KeyFromPath` returns the root key or a file key: slash-separated
components, none of them empty. -/
theorem s3KeyFromPath_eq (path : GoString) :
    s3KeyFromPath path = [] ∨ ∃ cs c, (∀ d ∈ cs, IsComponent d) ∧ IsComponent c ∧
      gs ".." ∉ splitSlash (dirPrefix cs ++ c) ∧ s3KeyFromPath path = dirPrefix cs ++ c := by
  unfold s3KeyFromPath
  dsimp only
  split
  · exact Or.inl rfl
  · next hdot =>
    split
    · exact Or.inl rfl
    · next hdd =>
      have h := (trimPrefix_clean path).resolve_right hdot
      rcases List.eq_nil_or_concat (cleanElems path) with hnil | ⟨cs, c, hcs⟩
      · left
        rw [h, hnil]
        rfl
      · right
        rw [List.concat_eq_append] at hcs
        have hcomp : ∀ d ∈ cs ++ [c], IsComponent d := by
          intro d hd
          exact isComponent_of_mem_cleanElems (hcs ▸ hd)
        rw [hcs, intercalate_concat] at h
        refine ⟨cs, c, fun d hd => hcomp d (by simp [hd]), hcomp c (by simp), ?_, h⟩
        rwa [← h]

/-- The directory key of a file key. -/
theorem s3DirKey_file (cs : List GoString) {c : GoString} (hc : IsComponent c)
    (hdd : gs ".." ∉ splitSlash (dirPrefix cs ++ c)) :
    s3DirKey (dirPrefix cs ++ c) = dirPrefix (cs ++ [c]) := by
  have hne : dirPrefix cs ++ c ≠ [] := fun h => hc.1 (List.append_eq_nil_iff.mp h).2
  rw [s3DirKey, if_neg hne, if_neg hdd, hasSuffixSlash_append_component _ hc, dirPrefix_concat]
  rfl

/-- A key obtained from a path does not end in a slash. -/
theorem hasSuffixSlash_s3KeyFromPath (path : GoString) :
    hasSuffixSlash (s3KeyFromPath path) = false := by
  rcases s3KeyFromPath_eq path with h | ⟨cs, c, -, hc, -, h⟩
  · rw [h]
    rfl
  · rw [h]
    exact hasSuffixSlash_append_component _ hc

/-- The directory key of a path's key is the key with a slash, unless the path is
the root. -/
theorem s3DirKey_s3KeyFromPath {path : GoString} (h : s3KeyFromPath path ≠ []) :
    s3DirKey (s3KeyFromPath path) = s3KeyFromPath path ++ [slash] := by
  rcases s3KeyFromPath_eq path with h' | ⟨cs, c, -, hc, hdd, h'⟩
  · exact absurd h' h
  · rw [h', s3DirKey_file cs hc hdd, dirPrefix_concat]

/-! ## Rooted paths -/

/-- A path component other than `.` and `..`. -/
structure IsName (c : GoString) : Prop where
  component : IsComponent c
  dot : c ≠ gs "."
  dotdot : c ≠ gs ".."

theorem cleanElem_name (rooted : Bool) (kept : List GoString) {c : GoString} (hc : IsName c) :
    cleanElem rooted kept c = c :: kept := by
  unfold cleanElem
  rw [if_neg (not_or.mpr ⟨hc.component.1, hc.dot⟩), if_neg hc.dotdot]

theorem splitSlash_append_cons (s t : GoString) :
    splitSlash (s ++ slash :: t) = splitSlash s ++ splitSlash t := by
  unfold splitSlash
  induction s with
  | nil => rw [List.nil_append, List.splitOn_cons_eq_if_modifyHead, if_pos (by simp),
      List.splitOn_nil, List.singleton_append]
  | cons b s ih =>
    rw [List.cons_append, List.splitOn_cons_eq_if_modifyHead, List.splitOn_cons_eq_if_modifyHead, ih]
    split
    · rfl
    · cases hsp : s.splitOn slash with
      | nil => exact absurd hsp (List.splitOn_ne_nil _ _)
      | cons p ps => rfl

/-- `filepath.Clean` keeps no `.` and no `..` of a rooted path. -/
theorem dots_notMem_foldl_cleanElem (parts kept : List GoString)
    (hkept : ∀ c ∈ kept, c ≠ gs "." ∧ c ≠ gs "..") :
    ∀ c ∈ parts.foldl (cleanElem true) kept, c ≠ gs "." ∧ c ≠ gs ".." := by
  induction parts generalizing kept with
  | nil => exact hkept
  | cons part parts ih =>
    refine ih _ fun c hc => ?_
    unfold cleanElem at hc
    split at hc
    · exact hkept c hc
    · next hdot =>
      split at hc
      · split at hc
        · cases hc
        · next last rest =>
          split at hc
          · next hlast => exact absurd hlast (hkept last List.mem_cons_self).2
          · exact hkept c (List.mem_cons_of_mem _ hc)
      · next hdd =>
        rcases List.mem_cons.mp hc with rfl | hc
        · exact ⟨fun h => hdot (Or.inr h), hdd⟩
        · exact hkept c hc

theorem isName_of_mem_cleanElems {path c : GoString} (hroot : path.head? = some slash)
    (hc : c ∈ cleanElems path) : IsName c := by
  have hcomp := isComponent_of_mem_cleanElems hc
  rw [cleanElems, hroot] at hc
  have hdots := dots_notMem_foldl_cleanElem _ [] nofun c (List.mem_reverse.mp hc)
  exact ⟨hcomp, hdots.1, hdots.2⟩

theorem splitSlash_intercalate {cs : List GoString} (hcs : ∀ c ∈ cs, IsName c) (hne : cs ≠ []) :
    splitSlash ([slash].intercalate cs) = cs :=
  List.splitOn_intercalate slash (fun c hc => (hcs c hc).component.2) hne

/-- Names joined by slashes contain neither `.` nor `..`. -/
theorem intercalate_names {cs : List GoString} (hcs : ∀ c ∈ cs, IsName c) :
    [slash].intercalate cs ≠ gs "." ∧ gs ".." ∉ splitSlash ([slash].intercalate cs) := by
  by_cases hne : cs = []
  · subst hne
    decide
  · have hsplit := splitSlash_intercalate hcs hne
    refine ⟨fun heq => ?_, fun hmem => ?_⟩
    · rw [heq] at hsplit
      have hdot : gs "." ∈ cs := hsplit ▸ (by decide : gs "." ∈ splitSlash (gs "."))
      exact (hcs _ hdot).dot rfl
    · rw [hsplit] at hmem
      exact (hcs _ hmem).dotdot rfl

/-- The key of a rooted path. -/
theorem s3KeyFromPath_rooted {path : GoString} (hroot : path.head? = some slash) :
    s3KeyFromPath path = [slash].intercalate (cleanElems path) := by
  have hnames := intercalate_names fun c hc => isName_of_mem_cleanElems hroot hc
  have hclean : clean path = slash :: [slash].intercalate (cleanElems path) := by
    rw [clean, hroot]
    rfl
  have htrim : trimPrefix (clean path) [slash] = [slash].intercalate (cleanElems path) := by
    rw [hclean]
    simp [trimPrefix, hasPrefix]
  rw [s3KeyFromPath, htrim, if_neg hnames.1, if_neg hnames.2]

/-- The directory key of a rooted path. -/
theorem s3DirKey_rooted {path : GoString} (hroot : path.head? = some slash) :
    s3DirKey (s3KeyFromPath path) = dirPrefix (cleanElems path) := by
  have hnames : ∀ c ∈ cleanElems path, IsName c := fun c hc => isName_of_mem_cleanElems hroot hc
  rw [s3KeyFromPath_rooted hroot]
  rcases List.eq_nil_or_concat (cleanElems path) with hnil | ⟨cs, c, hcs⟩
  · rw [hnil]
    rfl
  · rw [List.concat_eq_append] at hcs
    have hdd := (intercalate_names hnames).2
    rw [hcs] at hnames hdd ⊢
    rw [intercalate_concat] at hdd ⊢
    exact s3DirKey_file cs (hnames c (by simp)).component hdd

/-! ## Keys without empty components -/

/-- No slash follows a slash; `prev` says whether the byte before was one. -/
def tidyFrom : Bool → GoString → Bool
  | _, [] => true
  | prev, b :: bs => if b = slash then !prev && tidyFrom true bs else tidyFrom false bs

/-- A key without empty components, except that it may end in a slash. -/
def Tidy (key : GoString) : Prop := tidyFrom true key = true

instance (key : GoString) : Decidable (Tidy key) := inferInstanceAs (Decidable (_ = _))

theorem tidyFrom_component (prev : Bool) {c : GoString} (hc : IsComponent c) (rest : GoString) :
    tidyFrom prev (c ++ rest) = tidyFrom false rest := by
  obtain ⟨hne, hns⟩ := hc
  induction c generalizing prev with
  | nil => exact absurd rfl hne
  | cons b bs ih =>
    have hb : b ≠ slash := fun h => hns (by simp [h])
    rw [List.cons_append, tidyFrom, if_neg hb]
    by_cases hbs : bs = []
    · rw [hbs, List.nil_append]
    · exact ih false hbs fun h => hns (List.mem_cons_of_mem _ h)

theorem tidyFrom_dirPrefix {cs : List GoString} (hcs : ∀ d ∈ cs, IsComponent d)
    (rest : GoString) : tidyFrom true (dirPrefix cs ++ rest) = tidyFrom true rest := by
  induction cs with
  | nil => rfl
  | cons d ds ih =>
    have hd := hcs d List.mem_cons_self
    have happ : dirPrefix (d :: ds) ++ rest = d ++ (slash :: (dirPrefix ds ++ rest)) := by
      simp [dirPrefix]
    rw [happ, tidyFrom_component true hd, tidyFrom, if_pos rfl,
      ih fun e he => hcs e (List.mem_cons_of_mem _ he)]
    rfl

/-- Behind a directory prefix a tidy key goes on with a component or ends. -/
theorem tidyFrom_of_append {pfx rest : GoString} (hp : pfx = [] ∨ hasSuffixSlash pfx = true)
    (h : Tidy (pfx ++ rest)) : tidyFrom true rest = true := by
  have hgen : ∀ prev, tidyFrom prev (pfx ++ rest) = true →
      tidyFrom (if pfx = [] then prev else hasSuffixSlash pfx) rest = true := by
    clear hp h
    induction pfx with
    | nil => exact fun prev h => h
    | cons b bs ih =>
      intro prev h
      rw [List.cons_append, tidyFrom] at h
      rw [if_neg (List.cons_ne_nil _ _)]
      have hlast : bs ≠ [] → hasSuffixSlash (b :: bs) = hasSuffixSlash bs := by
        intro hbs
        simp [hasSuffixSlash, List.getLast?_cons, List.getLast?_eq_getLast_of_ne_nil hbs]
      by_cases hbs : bs = []
      · subst hbs
        by_cases hb : b = slash
        · rw [if_pos hb, Bool.and_eq_true] at h
          simpa [hasSuffixSlash, hb] using h.2
        · rw [if_neg hb] at h
          simpa [hasSuffixSlash, beq_eq_false_iff_ne.mpr hb] using h
      · rw [hlast hbs]
        have := fun prev hp => ih prev hp
        simp only [if_neg hbs] at this
        by_cases hb : b = slash
        · rw [if_pos hb, Bool.and_eq_true] at h
          exact this true h.2
        · rw [if_neg hb] at h
          exact this false h
  have := hgen true h
  rcases hp with rfl | hp
  · exact this
  · by_cases hnil : pfx = []
    · rwa [if_pos hnil] at this
    · rwa [if_neg hnil, hp] at this

theorem tidy_s3KeyFromPath (path : GoString) : Tidy (s3KeyFromPath path) := by
  rcases s3KeyFromPath_eq path with h | ⟨cs, c, hcs, hc, -, h⟩
  · rw [h]
    rfl
  · rw [h, Tidy, tidyFrom_dirPrefix hcs, ← List.append_nil c, tidyFrom_component true hc]
    rfl

theorem tidy_s3DirKey (path : GoString) : Tidy (s3DirKey (s3KeyFromPath path)) := by
  rcases s3KeyFromPath_eq path with h | ⟨cs, c, hcs, hc, hdd, h⟩
  · rw [h]
    rfl
  · rw [h, s3DirKey_file cs hc hdd, dirPrefix_concat, List.append_assoc, Tidy,
      tidyFrom_dirPrefix hcs, tidyFrom_component true hc]
    rfl

end S3Gateway
