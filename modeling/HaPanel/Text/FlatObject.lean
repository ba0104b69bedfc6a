import HaPanel.Text.Search

/-!
# Flat objects and lookup by first occurrence

A *flat object* is a list of fields `"key": value` between an opening and a closing
(`Layout.text`).  A value is either a text between quotation marks or a bare literal.  A lookup
searches for the first occurrence of the quoted key and then for the next colon
(`Layout.lookup`).

Such a lookup cannot tell a key from a value that looks like one.  `Layout.lookup_text` says
exactly where it lands: at the value of the first field with that key, or, if the text value of
an earlier field *ends like* the key (`EndsLike`), at the value of the field after that one
(`landing`).  A lookup is therefore right as soon as no earlier value ends like the key, the
value directly before it excepted (`landing_of_unambiguous`).  A search for a quoted key together
with its colon and the start of its literal is not fooled (`contains_text`).
-/

namespace HaPanel

namespace Text

variable {α : Type*} [DecidableEq α]

/-- The punctuation of a flat object. -/
structure Layout (α : Type*) where
  /-- The quotation mark. -/
  quote : α
  /-- What separates a key from its value. -/
  colon : α
  /-- The text before the first key. -/
  opening : List α
  /-- The text between a colon and the value. -/
  gap : List α
  /-- The text between a value and the next key. -/
  sep : List α
  /-- The text after the last value. -/
  closing : List α
  quote_ne_colon : quote ≠ colon
  quote_notMem_opening : quote ∉ opening
  quote_notMem_gap : quote ∉ gap
  quote_notMem_sep : quote ∉ sep
  quote_notMem_closing : quote ∉ closing
  colon_notMem_sep : colon ∉ sep
  colon_notMem_closing : colon ∉ closing

/-- A value as it is written. -/
inductive Value (α : Type*) where
  /-- The text between the quotation marks. -/
  | text (body : List α)
  /-- A literal without quotation marks. -/
  | bare (lit : List α)
  deriving DecidableEq, Repr

/-- A key with its value. -/
abbrev Entry (α : Type*) := List α × Value α

/-- The part of the text value after its last quotation mark is `key`: as it is written, the
value ends with what looks like the quoted key. -/
def Value.EndsLike (q : α) (key : List α) : Value α → Prop
  | .text body => (body.splitOn q).getLast? = some key
  | .bare _ => False

instance (q : α) (key : List α) : DecidablePred (Value.EndsLike q key)
  | .text body => inferInstanceAs (Decidable ((body.splitOn q).getLast? = some key))
  | .bare _ => inferInstanceAs (Decidable False)

/-- The lookup of `key` can read the value: a bare value has no quotation mark, and a text value
repeats `key` between quotation marks nowhere but at its end. -/
def Value.Readable (q : α) (key : List α) : Value α → Prop
  | .text body => ∀ c ∈ (body.splitOn q).dropLast, c ≠ key
  | .bare lit => q ∉ lit

namespace Layout

variable (L : Layout α)

/-- The text of a value. -/
def value : Value α → List α
  | .text body => L.quote :: (body ++ [L.quote])
  | .bare lit => lit

/-- The text from the end of a value on, when the fields `fs` follow. -/
def rest : List (Entry α) → List α
  | [] => L.closing
  | (key, v) :: fs =>
    L.sep ++ L.quote :: (key ++ L.quote :: L.colon :: (L.gap ++ (L.value v ++ rest fs)))

/-- The text from the colon before the value `v` on, when the fields `fs` follow. -/
def fromColon (v : Value α) (fs : List (Entry α)) : List α :=
  L.colon :: (L.gap ++ (L.value v ++ L.rest fs))

/-- The text of an object. -/
def text : List (Entry α) → List α
  | [] => L.opening ++ L.closing
  | (key, v) :: fs => L.opening ++ L.quote :: (key ++ L.quote :: L.fromColon v fs)

/-- Look a key up: the first occurrence of the quoted key, then the next colon. -/
def lookup (key s : List α) : Option (List α) :=
  (find (L.quote :: (key ++ [L.quote])) s).bind (find [L.colon])

/-- The lookup of `key` can read the field: the field's own key has no quotation mark and no
colon, and its value is readable. -/
def Readable (key : List α) (f : Entry α) : Prop :=
  L.quote ∉ f.1 ∧ L.colon ∉ f.1 ∧ f.2.Readable L.quote key

/-- Where the lookup of `key` lands: a value and the fields after it. -/
def landing (key : List α) : List (Entry α) → Option (Value α × List (Entry α))
  | [] => none
  | (k, v) :: fs =>
    if k = key then some (v, fs)
    else if v.EndsLike L.quote key then fs.head?.map fun f => (f.2, fs.tail)
    else landing key fs

/-- No two fields have the same key, and no value ends like a later key, the one directly after
it excepted. -/
def Unambiguous : List (Entry α) → Prop
  | [] => True
  | (k, v) :: fs =>
    k ∉ fs.map Prod.fst ∧ (∀ key ∈ fs.tail.map Prod.fst, ¬ v.EndsLike L.quote key) ∧
      Unambiguous fs

/-- The text between the end of a value and the next quotation mark. -/
def after : List (Entry α) → List α
  | [] => L.closing
  | _ :: _ => L.sep

/-- What follows the colon of a field up to the next quotation mark. -/
def literal (fs : List (Entry α)) : Value α → List α
  | .text _ => L.gap
  | .bare lit => L.gap ++ (lit ++ L.after fs)

/-- Some field with the given key has a literal that starts with `lit`. -/
def states (key lit : List α) : List (Entry α) → Bool
  | [] => false
  | (k, v) :: fs => (k == key && lit.isPrefixOf (L.literal fs v)) || states key lit fs

/-! ### The chunks of an object -/

/-- The chunks of a value after its literal. -/
def valueChunks (fs : List (Entry α)) : Value α → List (List α)
  | .text body => body.splitOn L.quote ++ [L.after fs]
  | .bare _ => []

/-- The chunks of the fields of an object. -/
def chunks : List (Entry α) → List (List α)
  | [] => []
  | (key, v) :: fs => key :: (L.colon :: L.literal fs v) :: (L.valueChunks fs v ++ chunks fs)

variable {L}

omit [DecidableEq α] in
theorem quote_notMem_after (fs : List (Entry α)) : L.quote ∉ L.after fs := by
  cases fs with
  | nil => exact L.quote_notMem_closing
  | cons f fs => exact L.quote_notMem_sep

/-- The chunks of a field spell the field. -/
theorem quoted_valueChunks (v : Value α) (fs : List (Entry α)) :
    L.literal fs v ++ quoted L.quote (L.valueChunks fs v) = L.gap ++ (L.value v ++ L.after fs) := by
  cases v with
  | text body =>
    have hb := quoted_splitOn L.quote body
    simp [literal, valueChunks, value, hb]
  | bare lit => simp [literal, valueChunks, value, after]

theorem rest_eq_quoted (fs : List (Entry α)) :
    L.rest fs = L.after fs ++ quoted L.quote (L.chunks fs) := by
  induction fs with
  | nil => simp [rest, after, chunks]
  | cons f fs ih =>
    obtain ⟨key, v⟩ := f
    have hv := quoted_valueChunks (L := L) v fs
    simp only [rest, chunks, quoted_cons, quoted_append, ih]
    rw [← List.append_assoc (L.value v), ← List.append_assoc L.gap, ← hv]
    simp [after]

theorem quoted_chunks_cons (k : List α) (v : Value α) (fs : List (Entry α)) :
    quoted L.quote (L.chunks ((k, v) :: fs)) = L.quote :: (k ++ L.quote :: L.fromColon v fs) := by
  have h := rest_eq_quoted (L := L) ((k, v) :: fs)
  simpa [rest, after, fromColon] using h.symm

theorem text_eq_quoted (fs : List (Entry α)) :
    L.text fs = (if fs.isEmpty then L.opening ++ L.closing else L.opening) ++
      quoted L.quote (L.chunks fs) := by
  cases fs with
  | nil => simp [text, chunks]
  | cons f fs =>
    obtain ⟨key, v⟩ := f
    rw [quoted_chunks_cons]
    simp [text]

theorem quote_notMem_chunks {key : List α} {fs : List (Entry α)}
    (h : ∀ f ∈ fs, L.Readable key f) : ∀ c ∈ L.chunks fs, L.quote ∉ c := by
  induction fs with
  | nil => simp [chunks]
  | cons f fs ih =>
    obtain ⟨k, v⟩ := f
    have ih := ih fun g hg => h g (by simp [hg])
    obtain ⟨hk, -, hv⟩ := h (k, v) (by simp)
    intro c hc
    simp only [chunks, List.mem_cons, List.mem_append] at hc
    rcases hc with rfl | rfl | hc | hc
    · exact hk
    · have hafter := quote_notMem_after (L := L) fs
      cases v with
      | text body => simp [literal, L.quote_ne_colon, L.quote_notMem_gap]
      | bare lit =>
        have hl : L.quote ∉ lit := hv
        simp [literal, L.quote_ne_colon, L.quote_notMem_gap, hl, hafter]
    · cases v with
      | text body =>
        rcases List.mem_append.1 hc with hc | hc
        · exact notMem_of_mem_splitOn hc
        · rw [List.mem_singleton.1 hc]
          exact quote_notMem_after fs
      | bare lit => cases hc
    · exact ih c hc

/-! ### Where a lookup lands -/

/-- The colon of a field, searched for from a stretch without colons before it. -/
theorem find_colon_field (s : List α) {k : List α} (v : Value α) (fs : List (Entry α))
    (hs : L.colon ∉ s) (hk : L.colon ∉ k) :
    find [L.colon] (s ++ L.quote :: (k ++ L.quote :: L.fromColon v fs)) =
      some (L.fromColon v fs) := by
  have hc : L.colon ∉ s ++ L.quote :: (k ++ [L.quote]) := by
    simp [hs, hk, L.quote_ne_colon.symm]
  have := find_singleton_append (s := L.gap ++ (L.value v ++ L.rest fs)) hc
  simpa [fromColon] using this

/-- The next colon after the end of a text value is the one of the next field. -/
theorem find_colon_after {key : List α} {fs : List (Entry α)} (hkey : L.colon ∉ key)
    (h : ∀ f ∈ fs, L.colon ∉ f.1) :
    find [L.colon] (L.quote :: (key ++ L.quote :: L.rest fs)) =
      fs.head?.map fun f => L.fromColon f.2 fs.tail := by
  cases fs with
  | nil =>
    have hc : L.colon ∉ L.quote :: (key ++ L.quote :: L.closing) := by
      simp [hkey, L.quote_ne_colon.symm, L.colon_notMem_closing]
    simpa [rest] using find_singleton_eq_none hc
  | cons f fs =>
    obtain ⟨k, v⟩ := f
    have hs : L.colon ∉ L.quote :: (key ++ L.quote :: L.sep) := by
      simp [hkey, L.quote_ne_colon.symm, L.colon_notMem_sep]
    simpa [rest, fromColon] using find_colon_field _ v fs hs (h (k, v) (by simp))

/-- Seeking past the value of a field that does not end like the key, or whose end is not
followed by what is sought. -/
theorem seek_valueChunks {key tail : List α} {v : Value α} {fs : List (Entry α)}
    (hv : v.Readable L.quote key) (hsep : L.sep ≠ key)
    (h : v.EndsLike L.quote key → ¬ tail <+: L.after fs) :
    seek key tail (L.valueChunks fs v ++ L.chunks fs) = seek key tail (L.chunks fs) := by
  cases v with
  | bare lit => rfl
  | text body =>
    have hafter : seek key tail (L.after fs :: L.chunks fs) = seek key tail (L.chunks fs) := by
      cases fs with
      | nil => simp [chunks, seek]
      | cons g gs => exact seek_cons_of_ne (by simpa [after] using hsep)
    have hne := List.splitOn_ne_nil L.quote body
    have hlast := List.getLast?_eq_some_getLast hne
    rw [valueChunks, ← List.dropLast_concat_getLast hne, List.append_assoc, List.append_assoc,
      seek_append_of_ne hv, List.singleton_append, List.singleton_append]
    by_cases he : (body.splitOn L.quote).getLast hne = key
    · rw [seek_cons_cons_neg (h (by rw [Value.EndsLike, hlast, he])), hafter]
    · rw [seek_cons_of_ne he, hafter]

/-- Seeking a key that a value ends like stops at the end of the value. -/
theorem seek_valueChunks_of_endsLike {key : List α} {v : Value α} {fs : List (Entry α)}
    (hv : v.Readable L.quote key) (he : v.EndsLike L.quote key) :
    seek key [] (L.valueChunks fs v ++ L.chunks fs) =
      some (key :: L.after fs :: L.chunks fs) := by
  cases v with
  | bare lit => cases he
  | text body =>
    have hne := List.splitOn_ne_nil L.quote body
    rw [Value.EndsLike, List.getLast?_eq_some_getLast hne, Option.some.injEq] at he
    rw [valueChunks, ← List.dropLast_concat_getLast hne, List.append_assoc, List.append_assoc,
      seek_append_of_ne hv, he]
    simp [seek]

theorem find_text {key tail : List α} {fs : List (Entry α)} (hq : L.quote ∉ key)
    (ht : L.quote ∉ tail) (h : ∀ f ∈ fs, L.Readable key f) :
    find (L.quote :: (key ++ L.quote :: tail)) (L.text fs) =
      (seek key tail (L.chunks fs)).map (quoted L.quote) := by
  have hopen : L.quote ∉ if fs.isEmpty then L.opening ++ L.closing else L.opening := by
    split_ifs <;> simp [L.quote_notMem_opening, L.quote_notMem_closing]
  rw [text_eq_quoted, find_quoted hopen (quote_notMem_chunks h) hq ht]

/-- **Where a lookup lands**: at the value of the first field with the key, or at the value of
the field after the first text value that ends like the key, whichever comes first. -/
theorem lookup_text {key : List α} {fs : List (Entry α)} (hq : L.quote ∉ key)
    (hc : L.colon ∉ key) (hsep : L.sep ≠ key) (h : ∀ f ∈ fs, L.Readable key f) :
    L.lookup key (L.text fs) = (L.landing key fs).map fun r => L.fromColon r.1 r.2 := by
  rw [lookup, find_text hq (by simp) h]
  induction fs with
  | nil => simp [chunks, seek, landing]
  | cons f fs ih =>
    obtain ⟨k, v⟩ := f
    have ih := ih fun g hg => h g (by simp [hg])
    obtain ⟨-, hk, hv⟩ := h (k, v) (by simp)
    by_cases hkey : k = key
    · subst hkey
      have hseek : seek k [] (L.chunks ((k, v) :: fs)) = some (L.chunks ((k, v) :: fs)) := by
        simp [chunks, seek]
      have hfind := find_colon_field [] v fs (by simp) hk
      rw [hseek, Option.map_some, Option.bind_some, quoted_chunks_cons]
      simpa [landing] using hfind
    · -- a chunk that starts with the colon is no key
      have hcol : L.colon :: L.literal fs v ≠ key := fun h => hc (by simp [← h])
      rw [chunks, seek_cons_of_ne hkey, seek_cons_of_ne hcol]
      by_cases he : v.EndsLike L.quote key
      · have hfs : ∀ f ∈ fs, L.colon ∉ f.1 := fun g hg => (h g (by simp [hg])).2.1
        have hfind := find_colon_after hc hfs
        rw [rest_eq_quoted] at hfind
        rw [seek_valueChunks_of_endsLike hv he]
        simpa [landing, hkey, he, Function.comp_def] using hfind
      · rw [seek_valueChunks hv hsep fun h => absurd h he, ih]
        simp [landing, hkey, he]

/-- **A quoted key together with its colon and the start of its literal** is found only at a
field with that key. -/
theorem contains_text {key lit : List α} {fs : List (Entry α)} (hq : L.quote ∉ key)
    (hc : L.colon ∉ key) (hsep : L.sep ≠ key) (hl : L.quote ∉ lit)
    (h : ∀ f ∈ fs, L.Readable key f) :
    contains (L.quote :: (key ++ L.quote :: L.colon :: lit)) (L.text fs) =
      L.states key lit fs := by
  rw [contains, find_text hq (by simp [L.quote_ne_colon, hl]) h, Option.isSome_map]
  induction fs with
  | nil => simp [chunks, seek, states]
  | cons f fs ih =>
    obtain ⟨k, v⟩ := f
    have ih := ih fun g hg => h g (by simp [hg])
    obtain ⟨-, -, hv⟩ := h (k, v) (by simp)
    have hcol : L.colon :: L.literal fs v ≠ key := fun h => hc (by simp [← h])
    -- no value is followed by a colon
    have hafter : ¬ L.colon :: lit <+: L.after fs := by
      intro hp
      have hmem : L.colon ∈ L.after fs := hp.mem (by simp)
      cases fs with
      | nil => exact L.colon_notMem_closing hmem
      | cons g gs => exact L.colon_notMem_sep hmem
    by_cases hm : k = key ∧ lit <+: L.literal fs v
    · obtain ⟨rfl, hp⟩ := hm
      simp [chunks, seek, states, List.isPrefixOf_iff_prefix, hp]
    · have hseek : seek key (L.colon :: lit) (L.chunks ((k, v) :: fs)) =
          seek key (L.colon :: lit) (L.chunks fs) := by
        have hhead : seek key (L.colon :: lit) (L.chunks ((k, v) :: fs)) =
            seek key (L.colon :: lit)
              ((L.colon :: L.literal fs v) :: (L.valueChunks fs v ++ L.chunks fs)) := by
          simp [chunks, seek, List.isPrefixOf_iff_prefix, hm]
        rw [hhead, seek_cons_of_ne hcol, seek_valueChunks hv hsep fun _ => hafter]
      rw [hseek, ih]
      simpa [states, List.isPrefixOf_iff_prefix] using fun h1 h2 => absurd ⟨h1, h2⟩ hm

theorem states_cons_of_ne {key lit k : List α} (h : k ≠ key) (v : Value α) (fs : List (Entry α)) :
    L.states key lit ((k, v) :: fs) = L.states key lit fs := by
  simp [states, h]

theorem states_of_notMem {key : List α} {fs : List (Entry α)} (h : key ∉ fs.map Prod.fst)
    (lit : List α) : L.states key lit fs = false := by
  induction fs with
  | nil => rfl
  | cons f fs ih =>
    obtain ⟨k, v⟩ := f
    simp only [List.map_cons, List.mem_cons, not_or] at h
    rw [states_cons_of_ne (Ne.symm h.1), ih h.2]

theorem states_cons_self {key : List α} {fs : List (Entry α)} (h : key ∉ fs.map Prod.fst)
    (lit : List α) (v : Value α) :
    L.states key lit ((key, v) :: fs) = lit.isPrefixOf (L.literal fs v) := by
  simp [states, states_of_notMem h]

/-! ### The characters of an object -/

omit [DecidableEq α] in
theorem notMem_rest {c : α} (hq : c ≠ L.quote) (hc : c ≠ L.colon) (hgap : c ∉ L.gap)
    (hsep : c ∉ L.sep) (hclosing : c ∉ L.closing) {fs : List (Entry α)}
    (h : ∀ f ∈ fs, c ∉ f.1 ∧ c ∉ L.value f.2) : c ∉ L.rest fs := by
  induction fs with
  | nil => exact hclosing
  | cons f fs ih =>
    obtain ⟨k, v⟩ := f
    obtain ⟨hk, hv⟩ := h (k, v) (by simp)
    have ih := ih fun g hg => h g (by simp [hg])
    simp [rest, hq, hc, hgap, hsep, hk, hv, ih]

omit [DecidableEq α] in
/-- A character occurs in an object only as punctuation, in a key or in a value. -/
theorem notMem_text {c : α} (hq : c ≠ L.quote) (hc : c ≠ L.colon) (hopening : c ∉ L.opening)
    (hgap : c ∉ L.gap) (hsep : c ∉ L.sep) (hclosing : c ∉ L.closing) {fs : List (Entry α)}
    (h : ∀ f ∈ fs, c ∉ f.1 ∧ c ∉ L.value f.2) : c ∉ L.text fs := by
  cases fs with
  | nil => simp [text, hopening, hclosing]
  | cons f fs =>
    obtain ⟨k, v⟩ := f
    obtain ⟨hk, hv⟩ := h (k, v) (by simp)
    have hrest : c ∉ L.rest fs :=
      notMem_rest hq hc hgap hsep hclosing fun g hg => h g (by simp [hg])
    simp [text, fromColon, hq, hc, hopening, hgap, hk, hv, hrest]

/-! ### Unambiguous objects -/

/-- The keys after `key`, without the one directly after it. -/
def distant (key : List α) (keys : List (List α)) : List (List α) :=
  (keys.dropWhile (· != key)).drop 2

theorem mem_of_mem_distant {key k : List α} {keys : List (List α)} (h : k ∈ distant key keys) :
    k ∈ keys :=
  (List.dropWhile_sublist _).subset ((List.drop_sublist _ _).subset h)

theorem unambiguous_of_distant {fs : List (Entry α)} (hkeys : (fs.map Prod.fst).Nodup)
    (h : ∀ f ∈ fs, ∀ k ∈ distant f.1 (fs.map Prod.fst), ¬ f.2.EndsLike L.quote k) :
    L.Unambiguous fs := by
  induction fs with
  | nil => trivial
  | cons f fs ih =>
    obtain ⟨hf, hkeys⟩ := List.nodup_cons.mp hkeys
    refine ⟨hf, fun k hk => h f (by simp) k ?_, ih hkeys fun g hg k hk => h g (by simp [hg]) k ?_⟩
    · simpa [distant, List.dropWhile_cons] using hk
    · have hne : f.1 ≠ g.1 := fun he => hf (he ▸ List.mem_map_of_mem hg)
      simpa [distant, List.dropWhile_cons, hne] using hk

theorem landing_of_unambiguous {key : List α} {v : Value α} {fs₁ fs₂ : List (Entry α)}
    (h : L.Unambiguous (fs₁ ++ (key, v) :: fs₂)) :
    L.landing key (fs₁ ++ (key, v) :: fs₂) = some (v, fs₂) := by
  induction fs₁ with
  | nil => simp [landing]
  | cons f fs₁ ih =>
    obtain ⟨k, w⟩ := f
    obtain ⟨hk, he, h⟩ := h
    have hne : k ≠ key := fun h => hk (by simp [h])
    rw [List.cons_append, landing, if_neg hne, ih h]
    cases fs₁ with
    | nil => simp
    | cons g gs =>
      have hw : ¬ w.EndsLike L.quote key := he key (by simp)
      simp [hw]

/-! ### Changing one value -/

variable (L) in
/-- The text of fields between two values. -/
def between : List (Entry α) → List α
  | [] => []
  | (key, v) :: fs =>
    L.sep ++ L.quote :: (key ++ L.quote :: L.colon :: (L.gap ++ (L.value v ++ between fs)))

omit [DecidableEq α] in
theorem rest_append (fs gs : List (Entry α)) : L.rest (fs ++ gs) = L.between fs ++ L.rest gs := by
  induction fs with
  | nil => rfl
  | cons f fs ih =>
    obtain ⟨key, v⟩ := f
    simp [rest, between, ih]

omit [DecidableEq α] in
theorem mem_between {fs : List (Entry α)} {f : Entry α} (hf : f ∈ fs) {x : α}
    (hx : x ∈ L.value f.2) : x ∈ L.between fs := by
  induction fs with
  | nil => cases hf
  | cons g fs ih =>
    rcases List.mem_cons.mp hf with rfl | hf
    · simp [between, hx]
    · simp [between, ih hf]

/-- A value that ends at most like the directly following key does not stop a lookup. -/
theorem landing_cons_of_clear {key s : List α} {v : Value α} {fs : List (Entry α)} (hs : s ≠ key)
    (hmem : key ∈ fs.map Prod.fst) (hv : key ∈ fs.tail.map Prod.fst → ¬ v.EndsLike L.quote key) :
    L.landing key ((s, v) :: fs) = L.landing key fs := by
  rw [landing, if_neg hs]
  by_cases he : v.EndsLike L.quote key
  · rw [if_pos he]
    cases fs with
    | nil => cases hmem
    | cons f fs =>
      have hf : f.1 = key := by
        by_contra hne
        have hmem' : key ∈ fs.map Prod.fst := by
          rw [List.map_cons, List.mem_cons] at hmem
          exact hmem.resolve_left (Ne.symm hne)
        exact hv hmem' he
      simp [landing, hf]
  · rw [if_neg he]

/-- Where the lookup of `key` lands before and after the value `v` of the key `s` has been replaced
by `v'`, when the field is preceded by `fs₁` and followed by `fs₂`. -/
inductive Landings (L : Layout α) (key s : List α) (v v' : Value α) (fs₁ fs₂ : List (Entry α)) :
    Option (Value α × List (Entry α)) → Option (Value α × List (Entry α)) → Prop where
  /-- Behind the field. -/
  | behind (r : Option (Value α × List (Entry α))) : Landings L key s v v' fs₁ fs₂ r r
  /-- Before the field: at the key, or at the value after one that ends like the key. -/
  | before {k : List α} {w : Value α} {gs : List (Entry α)} (hsuffix : (k, w) :: gs <:+ fs₁)
      (hin : key ∈ fs₁.map Prod.fst → key ∈ ((k, w) :: gs).map Prod.fst)
      (hout : key ∉ fs₁.map Prod.fst → (k, w) :: gs <:+ fs₁.tail) :
      Landings L key s v v' fs₁ fs₂ (some (w, gs ++ (s, v) :: fs₂)) (some (w, gs ++ (s, v') :: fs₂))
  /-- At the field. -/
  | inside (h : key = s) : Landings L key s v v' fs₁ fs₂ (some (v, fs₂)) (some (v', fs₂))

omit [DecidableEq α] in
/-- A field before all the others that stops no lookup. -/
theorem Landings.cons {key s k : List α} {v v' w : Value α} {fs₁ fs₂ : List (Entry α)}
    {r r' : Option (Value α × List (Entry α))} (h : Landings L key s v v' fs₁ fs₂ r r')
    (hk : k ≠ key) : Landings L key s v v' ((k, w) :: fs₁) fs₂ r r' := by
  cases h with
  | behind => exact .behind r
  | inside h => exact .inside h
  | before hsuffix hin hout =>
    refine .before (hsuffix.trans (List.suffix_cons _ _)) (fun h => ?_) fun _ => hsuffix
    exact hin (by simpa [Ne.symm hk] using h)

/-- A field before all the others with another key, whose value ends like the key that is looked
up: the lookup lands in the field behind it. -/
theorem landings_of_endsLike {key s k : List α} {v v' w : Value α} {fs₁ fs₂ : List (Entry α)}
    (hk : k ≠ key) (he : w.EndsLike L.quote key)
    (hmem : key ∈ (fs₁ ++ (s, v) :: fs₂).map Prod.fst)
    (hlast : key ∈ fs₂.map Prod.fst → ∀ f ∈ ((k, w) :: fs₁).getLast?, ¬ f.2.EndsLike L.quote key) :
    Landings L key s v v' ((k, w) :: fs₁) fs₂ (L.landing key ((k, w) :: (fs₁ ++ (s, v) :: fs₂)))
      (L.landing key ((k, w) :: (fs₁ ++ (s, v') :: fs₂))) := by
  rw [landing, landing, if_neg hk, if_neg hk, if_pos he, if_pos he]
  cases fs₁ with
  | nil =>
    -- the value before the replaced one ends like the key, which must then be the key of that field
    have hs : key = s := by
      by_contra hne
      refine hlast ?_ (k, w) rfl he
      simpa [hne] using hmem
    exact .inside hs
  | cons g gs =>
    refine .before (k := g.1) (List.suffix_cons _ _) (fun h => ?_) fun _ => List.suffix_refl _
    simpa [Ne.symm hk] using h

/-- **A lookup does not get into the value of another field** if neither this value nor the one
before it ends like the key. -/
theorem landings_replace {key s : List α} {v v' : Value α} {fs₁ fs₂ : List (Entry α)}
    (hmem : key ∈ (fs₁ ++ (s, v) :: fs₂).map Prod.fst)
    (hlast : key ∈ fs₂.map Prod.fst → ∀ f ∈ fs₁.getLast?, ¬ f.2.EndsLike L.quote key)
    (hv : key ∈ fs₂.tail.map Prod.fst → ¬ v.EndsLike L.quote key ∧ ¬ v'.EndsLike L.quote key) :
    Landings L key s v v' fs₁ fs₂ (L.landing key (fs₁ ++ (s, v) :: fs₂))
      (L.landing key (fs₁ ++ (s, v') :: fs₂)) := by
  induction fs₁ with
  | nil =>
    by_cases hs : s = key
    · simp only [List.nil_append, landing, if_pos hs]
      exact .inside hs.symm
    · have hmem' : key ∈ fs₂.map Prod.fst := by
        simpa [Ne.symm hs] using hmem
      rw [List.nil_append, List.nil_append, landing_cons_of_clear hs hmem' fun h => (hv h).1,
        landing_cons_of_clear hs hmem' fun h => (hv h).2]
      exact .behind _
  | cons f fs₁ ih =>
    obtain ⟨k, w⟩ := f
    by_cases hk : k = key
    · simp only [List.cons_append, landing, if_pos hk]
      exact .before (List.suffix_refl _) id fun h => absurd (by simp [hk]) h
    · have hmem' : key ∈ (fs₁ ++ (s, v) :: fs₂).map Prod.fst := by
        simpa [Ne.symm hk] using hmem
      by_cases he : w.EndsLike L.quote key
      · exact landings_of_endsLike hk he hmem' hlast
      · rw [List.cons_append, List.cons_append, landing, landing, if_neg hk, if_neg hk, if_neg he,
          if_neg he]
        have hlast' : key ∈ fs₂.map Prod.fst → ∀ f ∈ fs₁.getLast?, ¬ f.2.EndsLike L.quote key := by
          intro h g hg
          refine hlast h g ?_
          cases fs₁ with
          | nil => cases hg
          | cons a as => simpa using hg
        exact (ih hmem' hlast').cons hk

end Layout

end Text

end HaPanel
