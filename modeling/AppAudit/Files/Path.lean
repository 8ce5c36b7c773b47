/-
Paths as texts, with names separated by slashes. Nothing here looks at a file system.

`clean` gives the shortest spelling of a path by the rules of lexical processing: repeated slashes and `.` go away, `..`
takes back the name before it, and cannot leave the root. The other operations follow the usual command names.
-/

namespace AppAudit.Path

/-- the parts between slashes, empty ones included -/
def split : List Char → List (List Char)
  | [] => [[]]
  | c :: s =>
    match split s with
    | [] => [[c]]
    | part :: parts => if c = '/' then [] :: part :: parts else (c :: part) :: parts

/-- names separated by slashes -/
def joinNames : List (List Char) → List Char
  | [] => []
  | [name] => name
  | name :: names => name ++ '/' :: joinNames names

def isAbs (s : List Char) : Bool := s.head? = some '/'

/-- one step of cleaning: `done` holds the names kept so far, last one first -/
def cleanStep (rooted : Bool) (done : List (List Char)) (part : List Char) : List (List Char) :=
  if part = [] || part = ['.'] then done
  else if part = ['.', '.'] then
    match done with
    | [] => if rooted then [] else [part]
    | last :: rest => if last = ['.', '.'] then part :: done else rest
  else part :: done

/-- the names that remain of a path -/
def names (s : List Char) : List (List Char) :=
  ((split s).foldl (cleanStep (isAbs s)) []).reverse

/-- the shortest spelling of the path -/
def clean (s : List Char) : List Char :=
  let body := joinNames (names s)
  if isAbs s then '/' :: body
  else if body.isEmpty then ['.'] else body

/-- the parts that are not empty, joined and cleaned -/
def join (parts : List (List Char)) : List Char :=
  match parts.filter fun p => !p.isEmpty with
  | [] => []
  | kept => clean (joinNames kept)

/-- without slashes at the end -/
def trimSlashes (s : List Char) : List Char := (s.reverse.dropWhile (· = '/')).reverse

/-- the part behind the last slash -/
def lastPart (s : List Char) : List Char := (s.reverse.takeWhile (· ≠ '/')).reverse

/-- the last name of the path -/
def base (s : List Char) : List Char :=
  if s.isEmpty then ['.']
  else
    let trimmed := trimSlashes s
    if trimmed.isEmpty then ['/'] else lastPart trimmed

/-- everything up to the last slash, with it -/
def upToSlash (s : List Char) : List Char := (s.reverse.dropWhile (· ≠ '/')).reverse

/-- everything before the last name, cleaned -/
def dir (s : List Char) : List Char := clean (upToSlash s)

/-- from the last point of the last part on; empty without a point -/
def ext (s : List Char) : List Char :=
  let part := lastPart s
  if part.contains '.' then '.' :: (part.reverse.takeWhile (· ≠ '.')).reverse else []

/-- the path seen from the root, given the working directory -/
def abs (cwd s : List Char) : List Char := if isAbs s then clean s else join [cwd, s]

/-- `dropCommon a b` drops the names that both lists start with -/
def dropCommon : List (List Char) → List (List Char) → List (List Char) × List (List Char)
  | a :: as, b :: bs => if a = b then dropCommon as bs else (a :: as, b :: bs)
  | as, bs => (as, bs)

/-- how to reach `target` from `start`, both seen from the root -/
def rel (start target : List Char) : List Char :=
  let (up, down) := dropCommon (names start) (names target)
  let steps := up.map (fun _ => ['.', '.']) ++ down
  if steps.isEmpty then ['.'] else joinNames steps

/-! ## Going up

Taking the directory of a path again and again reaches `/` or `.`, where it stays: every step on the way makes the path
shorter, except for the one from a single character to `.`.
-/

/-- the room that names take in a path, each with a slash -/
def room : List (List Char) → Nat
  | [] => 0
  | name :: names => name.length + 1 + room names

/-- the same for parts of which the empty ones are left out -/
def roomUsed : List (List Char) → Nat
  | [] => 0
  | part :: parts => (if part = [] then 0 else part.length + 1) + roomUsed parts

theorem room_cleanStep (rooted : Bool) (done : List (List Char)) (part : List Char) :
    room (cleanStep rooted done part) ≤ room done + if part = [] then 0 else part.length + 1 := by
  unfold cleanStep
  split
  · omega
  · next h =>
    have hp : part ≠ [] := by simp_all
    rw [if_neg hp]
    split
    · split
      · split <;> simp [room]
      · split <;> simp only [room] <;> omega
    · simp only [room]; omega

theorem room_foldl_cleanStep (rooted : Bool) (parts done : List (List Char)) :
    room (parts.foldl (cleanStep rooted) done) ≤ room done + roomUsed parts := by
  induction parts generalizing done with
  | nil => simp [roomUsed]
  | cons part parts ih =>
    have h := ih (cleanStep rooted done part)
    have h' := room_cleanStep rooted done part
    simp only [List.foldl_cons, roomUsed] at *
    omega

theorem room_append (a b : List (List Char)) : room (a ++ b) = room a + room b := by
  induction a with
  | nil => simp [room]
  | cons name names ih => simp only [List.cons_append, room, ih]; omega

theorem room_reverse (names : List (List Char)) : room names.reverse = room names := by
  induction names with
  | nil => rfl
  | cons name names ih => simp only [List.reverse_cons, room_append, room, ih]; omega

theorem room_names (s : List Char) : room (names s) ≤ roomUsed (split s) := by
  unfold names
  rw [room_reverse]
  simpa [room] using room_foldl_cleanStep (isAbs s) (split s) []

theorem length_joinNames (names : List (List Char)) : (joinNames names).length ≤ room names - 1 := by
  induction names with
  | nil => simp [joinNames]
  | cons name names ih =>
    cases names with
    | nil => simp [joinNames, room]
    | cons next names =>
      simp only [joinNames, List.length_append, List.length_cons, room] at ih ⊢
      omega

theorem split_cons_slash (s : List Char) : split ('/' :: s) = [] :: split s := by
  rw [split]
  split
  · next h => cases s with
    | nil => simp [split] at h
    | cons c s =>
      rw [split] at h
      split at h
      · simp at h
      · split at h <;> simp at h
  · next h => simp [h]

/-- a slash at the end takes a character that no name needs, and so does one at the start -/
theorem roomUsed_split_slash (q : List Char) :
    roomUsed (split (q ++ ['/'])) ≤ q.length + if (split (q ++ ['/'])).head? = some [] then 0 else 1 := by
  induction q with
  | nil => simp [split, roomUsed]
  | cons c q ih =>
    rw [List.cons_append]
    by_cases hc : c = '/'
    · rw [hc, split_cons_slash]
      simp only [roomUsed, List.head?_cons, List.length_cons]
      split at ih <;> simp <;> omega
    · rw [split]
      split
      · simp [roomUsed]
      · next part parts h =>
        rw [h] at ih
        simp only [if_neg hc, roomUsed, List.head?_cons, Option.some.injEq, List.length_cons, reduceCtorEq,
          if_false] at ih ⊢
        by_cases hp : part = [] <;> simp [hp] at ih ⊢ <;> omega

theorem isAbs_iff_head?_split (s : List Char) (h : s ≠ []) : isAbs s ↔ (split s).head? = some [] := by
  cases s with
  | nil => exact absurd rfl h
  | cons c s =>
    by_cases hc : c = '/'
    · rw [hc, split_cons_slash]; simp [isAbs]
    · rw [split]
      split <;> simp [isAbs, hc]

/-- cleaning a path that ends in a slash makes it shorter, unless it is the root -/
theorem length_clean_lt (q : List Char) (h : q ≠ []) : (clean (q ++ ['/'])).length < (q ++ ['/']).length := by
  have hq : 0 < q.length := List.length_pos_iff.2 h
  have hn := room_names (q ++ ['/'])
  have hs := roomUsed_split_slash q
  have hj := length_joinNames (names (q ++ ['/']))
  have ha := isAbs_iff_head?_split (q ++ ['/']) (by simp)
  unfold clean
  simp only [List.length_append, List.length_cons, List.length_nil]
  split
  · next habs =>
    rw [if_pos (ha.1 habs)] at hs
    simp only [List.length_cons]
    omega
  · split at hs
    · next hh => exact absurd (ha.2 hh) ‹_›
    · split
      · simp; omega
      · omega

/-- a step up ends at a fixed point or makes this smaller -/
def depth (s : List Char) : Nat := 2 * s.length + if s = ['.'] then 0 else 1

theorem depth_dir_lt (s : List Char) (h : s ≠ []) (hd : dir s ≠ s) : depth (dir s) < depth s := by
  have hlen : (upToSlash s).length ≤ s.length := by
    unfold upToSlash
    rw [List.length_reverse]
    exact Nat.le_trans (List.dropWhile_suffix _).length_le (by simp)
  have hs : 0 < s.length := List.length_pos_iff.2 h
  unfold dir at hd ⊢
  cases hu : s.reverse.dropWhile (· ≠ '/') with
  | nil =>
    have : clean (upToSlash s) = ['.'] := by
      unfold upToSlash
      rw [hu]
      rfl
    rw [this] at hd ⊢
    unfold depth
    rw [if_neg (Ne.symm hd)]
    simp
    omega
  | cons c r =>
    have hc : c = '/' := by
      have := List.head?_dropWhile_not (· ≠ '/') s.reverse
      rw [hu] at this
      simpa using this
    have he : upToSlash s = r.reverse ++ ['/'] := by
      unfold upToSlash
      rw [hu, hc]
      simp
    by_cases hr : r = []
    · rw [he, hr] at hd ⊢
      have hroot : clean ([].reverse ++ ['/']) = ['/'] := by decide
      rw [hroot] at hd ⊢
      have h1 : s.length ≠ 1 := by
        intro h1
        apply hd
        match s, h1 with
        | [d], _ =>
          simp only [List.reverse_cons, List.reverse_nil, List.nil_append] at hu
          by_cases hdc : d = '/'
          · rw [hdc]
          · simp [hdc] at hu
      unfold depth
      simp
      omega
    · have := length_clean_lt r.reverse (by simpa using hr)
      rw [he] at hlen ⊢
      unfold depth
      split <;> split <;> omega

end AppAudit.Path
