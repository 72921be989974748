import Mathlib

/-! The string functions of `kernel/string.c` that the file system and the shell use. A C
string is the list of its bytes before the NUL. `string_tokenize` keeps the rest of the
string it is splitting in a static pointer, `tokenize_last`; the model passes it in and
returns it. -/
namespace OpenOS.Kernel

/-- A NUL-terminated string: the bytes before its NUL. -/
abbrev CString := List UInt8

/-- The bytes of an ASCII literal. -/
def cstr (s : String) : CString := s.toList.map Char.toUInt8

/-- `string_compare`: the difference of the first bytes that differ, read as unsigned chars,
where the end of a string reads as 0. -/
def stringCompare : CString → CString → Int
  | a :: as, b :: bs => if a = b then stringCompare as bs else (a.toNat : Int) - b.toNat
  | a :: _, [] => a.toNat
  | [], b :: _ => -(b.toNat : Int)
  | [], [] => 0

@[simp] theorem stringCompare_self (s : CString) : stringCompare s s = 0 := by
  induction s with
  | nil => rfl
  | cons a s ih => simp [stringCompare, ih]

/-- A string whose first byte is not the first byte `y` of another compares unequal to it. -/
theorem stringCompare_ne_zero {a b : CString} {y : UInt8} (hy : y ≠ 0) (first : b.head? = some y)
    (head : a.head? ≠ some y) : stringCompare a b ≠ 0 := by
  obtain ⟨bs, rfl⟩ : ∃ bs, b = y :: bs := by
    cases b with
    | nil => cases first
    | cons b bs => exact ⟨bs, by rw [Option.some.inj first]⟩
  cases a with
  | nil =>
    have : y.toNat ≠ 0 := fun zero => hy (UInt8.toNat_inj.mp zero)
    simp only [stringCompare]
    omega
  | cons x as =>
    have differ : x ≠ y := fun same => head (by rw [same]; rfl)
    have : x.toNat ≠ y.toNat := fun same => differ (UInt8.toNat_inj.mp same)
    simp only [stringCompare, if_neg differ]
    omega

/-- Two strings without NUL bytes compare equal exactly when they are the same string. -/
theorem stringCompare_eq_zero {a b : CString} (ha : 0 ∉ a) (hb : 0 ∉ b) : stringCompare a b = 0 ↔ a = b := by
  induction a generalizing b with
  | nil =>
    cases b with
    | nil => simp [stringCompare]
    | cons y bs =>
      have : y.toNat ≠ 0 := fun zero => hb (by rw [UInt8.toNat_inj.mp (zero.trans UInt8.toNat_zero.symm)]; simp)
      simp only [stringCompare, reduceCtorEq, iff_false]
      omega
  | cons x as ih =>
    have hx : x.toNat ≠ 0 := fun zero => ha (by rw [UInt8.toNat_inj.mp (zero.trans UInt8.toNat_zero.symm)]; simp)
    cases b with
    | nil =>
      simp only [stringCompare, reduceCtorEq, iff_false]
      omega
    | cons y bs =>
      by_cases same : x = y
      · subst same
        rw [stringCompare, if_pos rfl, ih (fun mem => ha (List.mem_cons_of_mem x mem))
          (fun mem => hb (List.mem_cons_of_mem x mem)), List.cons.injEq]
        simp
      · have : x.toNat ≠ y.toNat := fun eq => same (UInt8.toNat_inj.mp eq)
        rw [stringCompare, if_neg same, List.cons.injEq]
        simp only [same, false_and, iff_false]
        omega

/-- `strncmp(str1, str2, n)`: the first `n` bytes compared as unsigned chars, stopping after
a common NUL. -/
def strncmp : CString → CString → Nat → Int
  | _, _, 0 => 0
  | a :: as, b :: bs, n + 1 => if a ≠ b then (a.toNat : Int) - b.toNat else strncmp as bs n
  | a :: _, [], _ + 1 => a.toNat
  | [], b :: _, _ + 1 => -(b.toNat : Int)
  | [], [], _ + 1 => 0

/-- `strchr(str, ch)`: the index of the first `ch` before the NUL, `none` for `NULL`. -/
def strchr (str : CString) (ch : UInt8) : Option Nat := str.findIdx? (· == ch)

/-- `is_whitespace(c)`: a blank, a tab or a line end. -/
def isWhitespace (c : UInt8) : Bool :=
  c == ' '.toUInt8 || c == '\t'.toUInt8 || c == '\n'.toUInt8 || c == '\r'.toUInt8

/-- The static `tokenize_last`: the rest of the buffer it points into, `none` for `NULL`. -/
abbrev TokState := Option CString

/-- `string_tokenize(str, delim)` with `str` as `none` for `NULL`: the next token, and the new
`tokenize_last`. A `NULL` or empty `str` returns `NULL` and leaves `tokenize_last` as it was. -/
def stringTokenize (str : Option CString) (delim : CString) (last : TokState) :
    Option CString × TokState :=
  match str.or last with
  | none => (none, last)
  | some [] => (none, last)
  | some s =>
    match s.dropWhile (fun c => delim.contains c) with
    | [] => (none, none)
    | rest =>
      let token := rest.takeWhile (fun c => !delim.contains c)
      match rest.dropWhile (fun c => !delim.contains c) with
      | [] => (some token, none)
      | _ :: after => (some token, some after)

/-! ### `string_tokenize` over a whole string -/

/-- The tokens of `s`: its maximal non-empty runs of bytes that are not in `delim`, in order. -/
def tokens (delim s : CString) : List CString :=
  (s.splitOnP fun c => delim.contains c).filter fun t => !t.isEmpty

/-- The tokens that `tokenize_last` still holds. -/
def pending (delim : CString) : TokState → List CString
  | none => []
  | some r => tokens delim r

/-- The results of `string_tokenize(str, delim)` and of the calls `string_tokenize(NULL, delim)`
after it, `n` calls in all, from the state `last`. -/
def tokenizeCalls (delim : CString) (str : Option CString) (last : TokState) : Nat → List (Option CString)
  | 0 => []
  | n + 1 =>
    (stringTokenize str delim last).1 :: tokenizeCalls delim none (stringTokenize str delim last).2 n

section Tokenize

variable (delim : CString)

@[simp] theorem tokens_nil : tokens delim [] = [] := rfl

theorem head_dropWhile_false {α : Type} {p : α → Bool} :
    ∀ {l : List α} {x : α} {xs : List α}, l.dropWhile p = x :: xs → p x = false
  | [], _, _, h => by simp at h
  | a :: as, x, xs, h => by
    rw [List.dropWhile_cons] at h
    split at h
    · exact head_dropWhile_false h
    · next stop =>
      obtain ⟨rfl, -⟩ := List.cons.inj h
      simpa using stop

theorem tokens_delim_append {pre : CString} (all : ∀ c ∈ pre, delim.contains c = true) (rest : CString) :
    tokens delim (pre ++ rest) = tokens delim rest := by
  induction pre with
  | nil => rfl
  | cons c pre ih =>
    have more := ih fun x mem => all x (List.mem_cons_of_mem c mem)
    simp only [tokens] at more ⊢
    rw [List.cons_append, List.splitOnP_cons_eq_if_modifyHead, if_pos (all c List.mem_cons_self),
      List.filter_cons_of_neg (by simp), more]

theorem tokens_dropWhile (r : CString) :
    tokens delim (r.dropWhile fun c => delim.contains c) = tokens delim r := by
  conv_rhs => rw [← List.takeWhile_append_dropWhile (p := fun c => delim.contains c) (l := r)]
  exact (tokens_delim_append delim (fun _ mem => List.mem_takeWhile_imp mem) _).symm

theorem tokens_word {word : CString} (nonempty : word ≠ []) (inside : ∀ c ∈ word, delim.contains c = false) :
    tokens delim word = [word] := by
  rw [tokens, List.splitOnP_eq_singleton inside, List.filter_singleton]
  obtain ⟨c, cs, rfl⟩ := List.exists_cons_of_ne_nil nonempty
  rfl

theorem tokens_word_append {word : CString} (nonempty : word ≠ [])
    (inside : ∀ c ∈ word, delim.contains c = false) {d : UInt8} (sep : delim.contains d = true)
    (after : CString) : tokens delim (word ++ d :: after) = word :: tokens delim after := by
  rw [tokens, List.splitOnP_append_cons_of_forall_mem inside d sep after,
    List.filter_cons_of_pos (by simp [nonempty])]
  rfl

theorem takeWhile_token {x : UInt8} (first : delim.contains x = false) (xs : CString) :
    (x :: xs).takeWhile (fun c => !delim.contains c) ≠ [] ∧
      ∀ c ∈ (x :: xs).takeWhile (fun c => !delim.contains c), delim.contains c = false := by
  refine ⟨?_, fun _ mem => by simpa using List.mem_takeWhile_imp mem⟩
  rw [List.takeWhile_cons, first]
  simp

theorem tokens_token_last {x : UInt8} (first : delim.contains x = false) {xs : CString}
    (last : (x :: xs).dropWhile (fun c => !delim.contains c) = []) :
    tokens delim (x :: xs) = [(x :: xs).takeWhile fun c => !delim.contains c] := by
  obtain ⟨nonempty, inside⟩ := takeWhile_token delim first xs
  have split := List.takeWhile_append_dropWhile (p := fun c => !delim.contains c) (l := x :: xs)
  rw [last, List.append_nil] at split
  conv_lhs => rw [← split]
  exact tokens_word delim nonempty inside

theorem tokens_token_sep {x : UInt8} (first : delim.contains x = false) {xs : CString} {d : UInt8}
    {after : CString} (sep : (x :: xs).dropWhile (fun c => !delim.contains c) = d :: after) :
    tokens delim (x :: xs) = ((x :: xs).takeWhile fun c => !delim.contains c) :: tokens delim after := by
  obtain ⟨nonempty, inside⟩ := takeWhile_token delim first xs
  have split := List.takeWhile_append_dropWhile (p := fun c => !delim.contains c) (l := x :: xs)
  rw [sep] at split
  conv_lhs => rw [← split]
  exact tokens_word_append delim nonempty inside (by simpa using head_dropWhile_false sep) after

/-- One `string_tokenize(NULL, delim)` returns the first pending token, or `NULL` when there
is none, and leaves the others pending. -/
theorem stringTokenize_null (last : TokState) :
    (stringTokenize none delim last).1 = (pending delim last).head? ∧
      pending delim (stringTokenize none delim last).2 = (pending delim last).tail := by
  rcases last with _ | _ | ⟨c, cs⟩
  · exact ⟨rfl, rfl⟩
  · exact ⟨rfl, rfl⟩
  · simp only [stringTokenize, Option.none_or, pending, ← tokens_dropWhile delim (c :: cs)]
    -- the leading delimiters are skipped; what is left starts with a token, if anything
    cases rest : List.dropWhile (fun c => delim.contains c) (c :: cs) with
    | nil => exact ⟨rfl, rfl⟩
    | cons x xs =>
      dsimp only
      have first : delim.contains x = false := head_dropWhile_false rest
      -- the token ends at the end of the string, or at the next delimiter
      cases after : List.dropWhile (fun c => !delim.contains c) (x :: xs) with
      | nil =>
        rw [tokens_token_last delim first after]
        exact ⟨rfl, rfl⟩
      | cons d rest' =>
        rw [tokens_token_sep delim first after]
        exact ⟨rfl, rfl⟩

theorem tokenizeCalls_quiet (n : Nat) :
    ∀ last, pending delim last = [] → tokenizeCalls delim none last n = List.replicate n none := by
  induction n with
  | zero => exact fun _ _ => rfl
  | succ n ih =>
    intro last empty
    obtain ⟨token, rest⟩ := stringTokenize_null delim last
    rw [empty] at token rest
    rw [tokenizeCalls, token, ih _ rest, List.head?_nil, List.replicate_succ]

theorem tokenizeCalls_null (last : TokState) (k : Nat) :
    tokenizeCalls delim none last ((pending delim last).length + k) =
      (pending delim last).map some ++ List.replicate k none := by
  generalize held : pending delim last = p
  induction p generalizing last with
  | nil => rw [List.length_nil, Nat.zero_add, tokenizeCalls_quiet delim k last held]; rfl
  | cons t ts ih =>
    obtain ⟨token, rest⟩ := stringTokenize_null delim last
    rw [held] at token rest
    rw [List.length_cons, show ts.length + 1 + k = ts.length + k + 1 by omega, tokenizeCalls, token,
      ih _ rest]
    rfl

theorem stringTokenize_some {s : CString} (nonempty : s ≠ []) (last : TokState) :
    stringTokenize (some s) delim last = stringTokenize none delim (some s) := by
  obtain ⟨c, cs, rfl⟩ := List.exists_cons_of_ne_nil nonempty
  rfl

theorem tokenizeCalls_some {s : CString} (nonempty : s ≠ []) (last : TokState) (n : Nat) :
    tokenizeCalls delim (some s) last n = tokenizeCalls delim none (some s) n := by
  cases n with
  | zero => rfl
  | succ n => rw [tokenizeCalls, tokenizeCalls, stringTokenize_some delim nonempty]

theorem tokens_eq_nil_iff (s : CString) : tokens delim s = [] ↔ ∀ c ∈ s, delim.contains c = true := by
  rw [← tokens_dropWhile delim s]
  cases rest : s.dropWhile (fun c => delim.contains c) with
  | nil => exact ⟨fun _ => List.dropWhile_eq_nil_iff.mp rest, fun _ => rfl⟩
  | cons x xs =>
    have first : delim.contains x = false := head_dropWhile_false rest
    refine ⟨fun empty => ?_, fun all => ?_⟩
    · -- the bytes from `x` on start a token
      cases after : List.dropWhile (fun c => !delim.contains c) (x :: xs) with
      | nil => rw [tokens_token_last delim first after] at empty; cases empty
      | cons d more => rw [tokens_token_sep delim first after] at empty; cases empty
    · have mem : x ∈ s := (List.dropWhile_suffix _).subset (rest ▸ List.mem_cons_self)
      rw [all x mem] at first
      cases first

/-- Every byte of a token is a byte of the string. -/
theorem mem_of_mem_tokens : ∀ (s : CString), ∀ t ∈ tokens delim s, ∀ c ∈ t, c ∈ s := by
  intro s
  -- strong induction on the length: the tokens after the first come from a shorter suffix
  induction size : s.length using Nat.strong_induction_on generalizing s with
  | _ n ih =>
    intro t mem c inside
    have skipped := (List.dropWhile_suffix (fun c => delim.contains c) (l := s)).subset
    rw [← tokens_dropWhile delim s] at mem
    cases rest : s.dropWhile (fun c => delim.contains c) with
    | nil => rw [rest] at mem; cases mem
    | cons x xs =>
      rw [rest] at mem skipped
      have first : delim.contains x = false := head_dropWhile_false rest
      have word : ∀ c ∈ (x :: xs).takeWhile (fun c => !delim.contains c), c ∈ s :=
        fun c mem => skipped ((List.takeWhile_sublist _).subset mem)
      cases after : List.dropWhile (fun c => !delim.contains c) (x :: xs) with
      | nil =>
        rw [tokens_token_last delim first after, List.mem_singleton] at mem
        exact word c (mem ▸ inside)
      | cons d more =>
        rw [tokens_token_sep delim first after, List.mem_cons] at mem
        rcases mem with rfl | later
        · exact word c inside
        · -- `more` is a suffix of `s` shorter than it
          have suffix : more <:+ s := ((List.suffix_cons d more).trans
            (after ▸ List.dropWhile_suffix _)).trans (rest ▸ List.dropWhile_suffix _)
          have shorter : more.length < n := by
            have inner := (after ▸ List.dropWhile_suffix (fun c => !delim.contains c) (l := x :: xs)).length_le
            have outer := (rest ▸ List.dropWhile_suffix (fun c => delim.contains c) (l := s)).length_le
            simp only [List.length_cons] at inner outer
            omega
          exact suffix.subset (ih _ shorter more rfl t later c inside)

end Tokenize

/-- For every state earlier calls left, every non-empty string and every delimiter set, the
first call and the `NULL` calls after it return the tokens of the string in order, and then
`NULL` on every further call. -/
theorem string_tokenize_splits (delim s : CString) (nonempty : s ≠ []) (last : TokState) (k : Nat) :
    tokenizeCalls delim (some s) last ((tokens delim s).length + k) =
      (tokens delim s).map some ++ List.replicate k none := by
  rw [tokenizeCalls_some delim nonempty]
  exact tokenizeCalls_null delim (some s) k

theorem string_tokenize_splits_path :
    cstr "usr//bin/" ≠ [] ∧ tokens (cstr "/") (cstr "usr//bin/") = [cstr "usr", cstr "bin"] ∧
      tokenizeCalls (cstr "/") (some (cstr "usr//bin/")) (some (cstr "etc"))
          ((tokens (cstr "/") (cstr "usr//bin/")).length + 1) =
        (tokens (cstr "/") (cstr "usr//bin/")).map some ++ [none] :=
  ⟨by decide, by decide, string_tokenize_splits _ _ (by decide) _ 1⟩

/-- An empty string is the one exit that keeps `tokenize_last`: after `string_tokenize("a b", " ")`,
`string_tokenize("", " ")` returns `NULL` but the next `NULL` call returns `"b"`, a token of the
earlier string, where the empty string has none. -/
theorem string_tokenize_empty_resumes :
    tokens (cstr " ") [] = [] ∧ (stringTokenize (some (cstr "a b")) (cstr " ") none).2 = some (cstr "b") ∧
      tokenizeCalls (cstr " ") (some []) (some (cstr "b")) 2 = [none, some (cstr "b")] := by
  decide

end OpenOS.Kernel
