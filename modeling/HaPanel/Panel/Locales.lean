import HaPanel.Text.Template
import HaPanel.Transition.Run

/-!
# The languages of the portal

The texts of the portal are in one file for each language.  `tools/validate-locales.js` flattens the
files and compares them with the Polish one; `www/i18n.js` does not flatten anything: it follows the
path of a key through the objects, and takes the key itself for the text if there is none.  Languages
are switched while the page is in use, and each call of `setLanguage` may wait for two downloads.

The members of the files are texts and objects, and their keys are plain: none is empty, has a dot or
is `__proto__`.  Both scripts accept other files too, but they do not read them alike: with a dot in a
key the validator is content and the page does not find the text.  The references are the keys in the
`data-i18n` attributes of the page, which the validator collects; those that scripts hand to `I18n.t`
are not among them.

`validated_texts_are_shown` : if the validator finds nothing, then in every interleaving of calls and
downloads, of which any may fail, the text for a key is the text of the current language, with all
its placeholders filled by what the Polish text needs.  Only before the first download it is the key.
-/

namespace HaPanel

namespace Panel

namespace Locales

open Text Transition

/-! ### Language files -/

/-- The object in a language file: its members are texts and objects. -/
inductive Dictionary where
  | empty
  | text (key value : Bytes) (rest : Dictionary)
  | group (key : Bytes) (entries rest : Dictionary)
deriving DecidableEq

/-- A value of JavaScript, if it is not undefined. -/
inductive Property where
  | text (value : Bytes)
  | group (entries : Dictionary)

/-- `String(value)` -/
def Property.string : Property → Bytes
  | .text value => value
  | .group _ => str "[object Object]"

/-- A key that neither looks like a path nor changes the prototype of an object. -/
def PlainKey (key : Bytes) : Prop := key ≠ [] ∧ byte '.' ∉ key ∧ key ≠ str "__proto__"

instance : DecidablePred PlainKey := fun _ => inferInstanceAs (Decidable (_ ∧ _))

/-- What `flatten` collects: the full keys and their texts. -/
abbrev Output := List (Bytes × Bytes)

/-- `output[key] = value` -/
def Output.assign (output : Output) (key value : Bytes) : Output :=
  output.filter (fun p => p.1 ≠ key) ++ [(key, value)]

def Output.keys (output : Output) : List Bytes := sortNames (output.map Prod.fst)

/-- `output[key]`; what is undefined has no placeholders. -/
def Output.value (output : Output) (key : Bytes) : Bytes := (output.lookup key).getD []

namespace Dictionary

def keys : Dictionary → List Bytes
  | empty => []
  | text key _ rest => key :: rest.keys
  | group key _ rest => key :: rest.keys

/-- `JSON.parse` gives an object each key once. -/
def Plain : Dictionary → Prop
  | empty => True
  | text key _ rest => PlainKey key ∧ key ∉ rest.keys ∧ rest.Plain
  | group key entries rest => PlainKey key ∧ key ∉ rest.keys ∧ entries.Plain ∧ rest.Plain

instance decidablePlain : (d : Dictionary) → Decidable d.Plain
  | empty => .isTrue trivial
  | text key _ rest =>
    have := rest.decidablePlain
    inferInstanceAs (Decidable (PlainKey key ∧ key ∉ rest.keys ∧ rest.Plain))
  | group key entries rest =>
    have := entries.decidablePlain
    have := rest.decidablePlain
    inferInstanceAs (Decidable (PlainKey key ∧ key ∉ rest.keys ∧ entries.Plain ∧ rest.Plain))

/-- A property that the object itself has. -/
def get : Dictionary → Bytes → Option Property
  | empty, _ => none
  | text key value rest, k => if key = k then some (.text value) else rest.get k
  | group key entries rest, k => if key = k then some (.group entries) else rest.get k

def fullKey (pre key : Bytes) : Bytes := if pre = [] then key else pre ++ byte '.' :: key

def flatten (pre : Bytes) : Dictionary → Output → Output
  | empty, output => output
  | text key value rest, output => rest.flatten pre (output.assign (fullKey pre key) value)
  | group key entries rest, output =>
    rest.flatten pre (entries.flatten (fullKey pre key) output)

end Dictionary

/-- A language file with plain keys. -/
structure Locale where
  entries : Dictionary
  plain : entries.Plain

def Locale.flat (l : Locale) : Output := l.entries.flatten [] []

/-- The text with the given full key. -/
def Locale.text (l : Locale) (key : Bytes) : Option Bytes := l.flat.lookup key

/-! ### The validator -/

/-- The errors in a language file. -/
def check (source : Output) (locale : Bytes) (translations : Output) : List Bytes :=
  (source.keys.filter (!translations.keys.contains ·)).map (fun key =>
      locale ++ str ": missing key " ++ key) ++
    (translations.keys.filter (!source.keys.contains ·)).map (fun key =>
      locale ++ str ": unexpected key " ++ key) ++
    ((source.keys.filter translations.keys.contains).filter fun key =>
        signature (source.value key) ≠ signature (translations.value key)).map fun key =>
      locale ++ str ": placeholder mismatch in " ++ key ++ str " (expected: " ++
        (str ", ").intercalate (sortNames (placeholders (source.value key))) ++ str ")"

/-- The language files with their names, and the keys in `www/index.html`. -/
def validate (files : List (Bytes × Locale)) (references : List Bytes) :
    Except Bytes (List Bytes) :=
  match files.lookup (str "pl") with
  | none => .error (str "Missing source locale: pl.json")
  | some source =>
    .ok (files.flatMap (fun p => check source.flat p.1 p.2.flat) ++
      (references.eraseDups.filter (!source.flat.keys.contains ·)).map fun key =>
        str "HTML: unknown translation key " ++ key)

/-! ### The page -/

inductive Language where
  | pl
  | en
deriving DecidableEq

def Language.name : Language → Bytes
  | pl => str "pl"
  | en => str "en"

def fallbackLanguage : Language := .pl

def toLower (c : UInt8) : UInt8 := if byte 'A' ≤ c ∧ c ≤ byte 'Z' then c + 32 else c

def normalizeLanguage (value : Bytes) : Language :=
  let normalized := (value.map toLower).takeWhile (· ≠ byte '-')
  if normalized = str "en" then .en else fallbackLanguage

section

variable (inherited : Property → Bytes → Option Property)

/-- `value && value[key]`; what an object or a text inherits is a parameter. -/
def member : Option Property → Bytes → Option Property
  | none, _ => none
  | some (.text value), key => if value = [] then some (.text value) else inherited (.text value) key
  | some (.group entries), key => (entries.get key).or (inherited (.group entries) key)

def readPath (source : Option Property) (path : Bytes) : Option Property :=
  (path.splitOn (byte '.')).foldl (member inherited) source

def translate (dictionaries : Language → Option Locale) (language : Language) (key : Bytes)
    (parameters : Bytes → Option Bytes) : Bytes :=
  let read := fun l => readPath inherited ((dictionaries l).map fun d => .group d.entries) key
  interpolate (((read language).or (read fallbackLanguage)).elim key Property.string) parameters

/-- A call of `setLanguage`, waiting for a dictionary. -/
structure Pending where
  nextLanguage : Language
  loading : Language
  /-- The dictionary was there already. -/
  cached : Bool
  /-- The call is that of `init`, which catches its error. -/
  initial : Bool

structure Page where
  dictionaries : Language → Option Locale := fun _ => none
  language : Language := fallbackLanguage
  calls : ℕ → Option Pending := fun _ => none
  /-- The texts that `applyTranslations` has put into the page. -/
  shown : Option (Bytes → Bytes) := none

inductive Turn where
  | setLanguage (i : ℕ) (locale : Bytes) (initial : Bool)
  /-- The call goes on; a download has succeeded or not. -/
  | loaded (i : ℕ) (ok : Bool)

namespace Page

variable (files : Language → Locale) (s : Page)

def setCall (i : ℕ) (c : Option Pending) : Page := { s with calls := Function.update s.calls i c }

/-- Both dictionaries are there. -/
def finish (i : ℕ) (nextLanguage : Language) : Page :=
  { s.setCall i none with
    language := nextLanguage
    shown := some fun key => translate inherited s.dictionaries nextLanguage key fun _ => none }

/-- A dictionary is there. -/
def proceed (i : ℕ) (c : Pending) : Page :=
  if c.loading = c.nextLanguage then s.finish inherited i c.nextLanguage
  else s.setCall i (some { c with
    loading := c.nextLanguage
    cached := (s.dictionaries c.nextLanguage).isSome })

def next : Turn → Page
  | .setLanguage i locale initial =>
    match s.calls i with
    | none => s.setCall i (some
        { nextLanguage := normalizeLanguage locale
          loading := fallbackLanguage
          cached := (s.dictionaries fallbackLanguage).isSome
          initial := initial })
    | some _ => s
  | .loaded i ok =>
    match s.calls i with
    | none => s
    | some c =>
      if c.cached then s.proceed inherited i c
      else if ok then
        { s with
          dictionaries :=
            Function.update s.dictionaries c.loading (some (files c.loading)) }.proceed inherited i c
      else if c.initial then { s.setCall i none with language := fallbackLanguage }
      else s.setCall i none

end Page

end

/-! ### What flattening does -/

namespace Dictionary

/-- The texts, with their paths. -/
def leaves : Dictionary → List (List Bytes × Bytes)
  | empty => []
  | text key value rest => ([key], value) :: rest.leaves
  | group key entries rest => entries.leaves.map (fun p => (key :: p.1, p.2)) ++ rest.leaves

end Dictionary

/-- The full key of a path. -/
def join (path : List Bytes) : Bytes := [byte '.'].intercalate path

variable {d : Dictionary} {path : List Bytes} {key t : Bytes}

/-- A path begins with a key of the object, and has no other keys than plain ones. -/
theorem Dictionary.path_of_mem (h : d.Plain) (hpath : (path, t) ∈ d.leaves) :
    (∃ k q, path = k :: q ∧ k ∈ d.keys) ∧ ∀ k ∈ path, PlainKey k := by
  induction d generalizing path with
  | empty => cases hpath
  | text key value rest ih =>
    obtain heq | hrest := List.mem_cons.mp hpath
    · obtain ⟨rfl, -⟩ := Prod.mk.inj heq
      exact ⟨⟨key, [], rfl, List.mem_cons_self ..⟩, List.forall_mem_singleton.mpr h.1⟩
    · obtain ⟨⟨k, q, rfl, hk⟩, hplain⟩ := ih h.2.2 hrest
      exact ⟨⟨k, q, rfl, List.mem_cons_of_mem _ hk⟩, hplain⟩
  | group key entries rest ihe ihr =>
    obtain ⟨hkey, -, hentries, hrest⟩ := h
    obtain hentry | hlater := List.mem_append.mp hpath
    · obtain ⟨⟨q, v⟩, hq, heq⟩ := List.mem_map.mp hentry
      obtain ⟨rfl, rfl⟩ := Prod.mk.inj heq
      refine ⟨⟨key, q, rfl, List.mem_cons_self ..⟩, List.forall_mem_cons.mpr ⟨hkey, ?_⟩⟩
      exact (ihe hentries hq).2
    · obtain ⟨⟨k, q, rfl, hk⟩, hplain⟩ := ihr hrest hlater
      exact ⟨⟨k, q, rfl, List.mem_cons_of_mem _ hk⟩, hplain⟩

theorem joinable (h : ∀ k ∈ path, PlainKey k) : Joinable (byte '.') path :=
  fun k hk => ⟨(h k hk).1, (h k hk).2.1⟩

theorem Dictionary.nodup_paths (h : d.Plain) : (d.leaves.map Prod.fst).Nodup := by
  induction d with
  | empty => exact List.nodup_nil
  | text key value rest ih =>
    refine List.nodup_cons.mpr ⟨fun hmem => ?_, ih h.2.2⟩
    obtain ⟨⟨q, v⟩, hq, rfl⟩ := List.mem_map.mp hmem
    obtain ⟨⟨k, r, heq, hk⟩, -⟩ := path_of_mem h.2.2 hq
    obtain ⟨rfl, -⟩ := List.cons_eq_cons.mp heq
    exact h.2.1 hk
  | group key entries rest ihe ihr =>
    obtain ⟨-, hfresh, hentries, hrest⟩ := h
    rw [leaves, List.map_append, List.map_map]
    refine List.Nodup.append ?_ (ihr hrest) ?_
    · have hcons : (Prod.fst ∘ fun p : List Bytes × Bytes => (key :: p.1, p.2)) =
          (fun path => key :: path) ∘ Prod.fst := rfl
      rw [hcons, ← List.map_map]
      exact (ihe hentries).map (List.cons_injective)
    · -- the paths of the rest begin with another key
      rintro path hleft hright
      obtain ⟨⟨q, v⟩, -, rfl⟩ := List.mem_map.mp hleft
      obtain ⟨⟨r, w⟩, hr, heq⟩ := List.mem_map.mp hright
      obtain ⟨⟨k, r', hpath, hk⟩, -⟩ := path_of_mem hrest hr
      rw [show r = _ from heq] at hpath
      obtain ⟨rfl, -⟩ := List.cons_eq_cons.mp hpath
      exact hfresh hk

theorem fullKey_join (h : ∀ k ∈ path, PlainKey k) (key : Bytes) :
    Dictionary.fullKey (join path) key = join (path ++ [key]) := by
  have hnil : join path = [] ↔ path = [] := (joinable h).intercalate_eq_nil
  unfold Dictionary.fullKey
  by_cases hpath : path = []
  · rw [if_pos (hnil.mpr hpath), hpath]
    exact List.intercalate_singleton.symm
  · rw [if_neg (hnil.not.mpr hpath)]
    exact (intercalate_concat hpath key).symm

/-- `flatten` assigns the texts one after the other. -/
theorem Dictionary.flatten_eq (h : d.Plain) (hpath : ∀ k ∈ path, PlainKey k) (output : Output) :
    d.flatten (join path) output =
      d.leaves.foldl (fun output p => output.assign (join (path ++ p.1)) p.2) output := by
  induction d generalizing path output with
  | empty => rfl
  | text key value rest ih =>
    rw [flatten, ih h.2.2 hpath, fullKey_join hpath]
    rfl
  | group key entries rest ihe ihr =>
    obtain ⟨hkey, -, hentries, hrest⟩ := h
    have hlonger : ∀ k ∈ path ++ [key], PlainKey k := by
      rw [List.forall_mem_append, List.forall_mem_singleton]
      exact ⟨hpath, hkey⟩
    rw [flatten, ihr hrest hpath, fullKey_join hpath, ihe hentries hlonger, leaves,
      List.foldl_append, List.foldl_map]
    simp only [List.append_assoc, List.singleton_append]

/-- Assigning to different keys. -/
theorem foldl_assign {l output : Output} (h : ((output ++ l).map Prod.fst).Nodup) :
    l.foldl (fun output p => output.assign p.1 p.2) output = output ++ l := by
  induction l generalizing output with
  | nil => exact (List.append_nil output).symm
  | cons p l ih =>
    have hfresh : output.filter (fun q => q.1 ≠ p.1) = output := by
      refine List.filter_eq_self.mpr fun q hq => decide_eq_true fun heq => ?_
      rw [List.map_append, List.map_cons, List.nodup_append] at h
      exact h.2.2 q.1 (List.mem_map_of_mem hq) p.1 (List.mem_cons_self ..) heq
    have hassign : output.assign p.1 p.2 = output ++ [p] := by
      rw [Output.assign, hfresh]
    rw [List.foldl_cons, hassign, ih (by simpa using h)]
    simp

variable {l : Locale}

theorem nodup_keys (l : Locale) :
    ((l.entries.leaves.map fun p => (join p.1, p.2)).map Prod.fst).Nodup := by
  have hcomp : (Prod.fst ∘ fun p : List Bytes × Bytes => (join p.1, p.2)) = join ∘ Prod.fst := rfl
  rw [List.map_map, hcomp, ← List.map_map]
  refine (Dictionary.nodup_paths l.plain).map_on fun p hp q hq heq => ?_
  obtain ⟨⟨p, v⟩, hpv, rfl⟩ := List.mem_map.mp hp
  obtain ⟨⟨q, w⟩, hqw, rfl⟩ := List.mem_map.mp hq
  have hplain := (Dictionary.path_of_mem l.plain hpv).2
  have hplain' := (Dictionary.path_of_mem l.plain hqw).2
  exact ((joinable hplain).intercalate_inj (joinable hplain')).mp heq

/-- The output has the texts under the joined paths. -/
theorem flat_eq (l : Locale) : l.flat = l.entries.leaves.map fun p => (join p.1, p.2) := by
  have hflat : l.flat = l.entries.leaves.foldl
      (fun output p => Output.assign output (join ([] ++ p.1)) p.2) [] :=
    Dictionary.flatten_eq l.plain (List.forall_mem_nil _) []
  have hnodup : ((([] : Output) ++ l.entries.leaves.map fun p => (join p.1, p.2)).map
      Prod.fst).Nodup := nodup_keys l
  have hfold := foldl_assign hnodup
  rw [List.foldl_map] at hfold
  rw [hflat]
  exact hfold

theorem leaf_of_text (h : l.text key = some t) :
    ∃ path, (path, t) ∈ l.entries.leaves ∧ join path = key := by
  obtain ⟨before, after, hflat, -⟩ := List.lookup_eq_some_iff.mp h
  have hmem : (key, t) ∈ l.flat := by
    rw [hflat]
    exact List.mem_append_right _ (List.mem_cons_self ..)
  rw [flat_eq] at hmem
  obtain ⟨⟨path, v⟩, hpath, heq⟩ := List.mem_map.mp hmem
  obtain ⟨hjoin, rfl⟩ := Prod.mk.inj heq
  exact ⟨path, hpath, hjoin⟩

theorem mem_keys_iff : key ∈ l.flat.keys ↔ ∃ t, l.text key = some t := by
  rw [Output.keys, sortNames, List.mem_insertionSort, Locale.text]
  constructor
  · intro h
    have hsome : (l.flat.lookup key).isSome := by
      rw [List.lookup_isSome_iff]
      obtain ⟨p, hp, rfl⟩ := List.mem_map.mp h
      exact ⟨p, hp, by simp⟩
    exact Option.isSome_iff_exists.mp hsome
  · rintro ⟨t, ht⟩
    obtain ⟨before, after, hflat, -⟩ := List.lookup_eq_some_iff.mp ht
    rw [hflat]
    simp

/-! ### What the page reads -/

/-- The first key of a path leads to the text, or to the object that has it. -/
theorem Dictionary.get_of_mem {k : Bytes} (h : d.Plain) (hpath : (k :: path, t) ∈ d.leaves) :
    (path = [] ∧ d.get k = some (.text t)) ∨
      ∃ entries, d.get k = some (.group entries) ∧ entries.Plain ∧ (path, t) ∈ entries.leaves := by
  induction d with
  | empty => cases hpath
  | text key value rest ih =>
    obtain heq | hrest := List.mem_cons.mp hpath
    · obtain ⟨hcons, rfl⟩ := Prod.mk.inj heq
      obtain ⟨rfl, rfl⟩ := List.cons_eq_cons.mp hcons
      exact .inl ⟨rfl, if_pos rfl⟩
    · obtain ⟨⟨k', q, hcons, hk⟩, -⟩ := path_of_mem h.2.2 hrest
      obtain ⟨rfl, rfl⟩ := List.cons_eq_cons.mp hcons
      have hne : key ≠ k := by
        rintro rfl
        exact h.2.1 hk
      rw [get, if_neg hne]
      exact ih h.2.2 hrest
  | group key entries rest ihe ihr =>
    obtain ⟨-, hfresh, hentries, hrest⟩ := h
    obtain hentry | hlater := List.mem_append.mp hpath
    · obtain ⟨⟨q, v⟩, hq, heq⟩ := List.mem_map.mp hentry
      obtain ⟨hcons, rfl⟩ := Prod.mk.inj heq
      obtain ⟨rfl, rfl⟩ := List.cons_eq_cons.mp hcons
      exact .inr ⟨entries, if_pos rfl, hentries, hq⟩
    · obtain ⟨⟨k', q, hcons, hk⟩, -⟩ := path_of_mem hrest hlater
      obtain ⟨rfl, rfl⟩ := List.cons_eq_cons.mp hcons
      have hne : key ≠ k := by
        rintro rfl
        exact hfresh hk
      rw [get, if_neg hne]
      exact ihr hrest hlater

section

variable {inherited : Property → Bytes → Option Property}

/-- Following the path of a text leads to it, whatever the objects on the way inherit. -/
theorem foldl_member_of_leaf (h : d.Plain) (hpath : (path, t) ∈ d.leaves) :
    path.foldl (member inherited) (some (.group d)) = some (.text t) := by
  induction path generalizing d with
  | nil =>
    obtain ⟨⟨k, q, hcons, -⟩, -⟩ := Dictionary.path_of_mem h hpath
    cases hcons
  | cons k path ih =>
    obtain ⟨rfl, hget⟩ | ⟨entries, hget, hentries, hmem⟩ := Dictionary.get_of_mem h hpath
    · simp only [List.foldl_cons, List.foldl_nil, member, hget, Option.some_or]
    · simp only [List.foldl_cons, member, hget, Option.some_or]
      exact ih hentries hmem

/-- The page finds what the validator has seen. -/
theorem readPath_of_text (h : l.text key = some t) :
    readPath inherited (some (.group l.entries)) key = some (.text t) := by
  obtain ⟨path, hpath, rfl⟩ := leaf_of_text h
  obtain ⟨⟨k, q, rfl, -⟩, hplain⟩ := Dictionary.path_of_mem l.plain hpath
  rw [readPath, join, (joinable hplain).splitOn (List.cons_ne_nil k q)]
  exact foldl_member_of_leaf l.plain hpath

theorem readPath_none (key : Bytes) : readPath inherited none key = none := by
  unfold readPath
  induction key.splitOn (byte '.') with
  | nil => rfl
  | cons k path ih => exact ih

theorem translate_of_text {dictionaries : Language → Option Locale} {language : Language}
    (hloaded : dictionaries language = some l) (h : l.text key = some t)
    (parameters : Bytes → Option Bytes) :
    translate inherited dictionaries language key parameters = interpolate t parameters := by
  simp only [translate, hloaded, Option.map_some, readPath_of_text h, Option.some_or,
    Option.elim_some, Property.string]

/-- Without a dictionary, the key is the text. -/
theorem translate_of_none {dictionaries : Language → Option Locale}
    (hnone : dictionaries fallbackLanguage = none) (key : Bytes)
    (parameters : Bytes → Option Bytes) :
    translate inherited dictionaries fallbackLanguage key parameters = interpolate key parameters := by
  simp only [translate, hnone, Option.map_none, readPath_none, Option.none_or, Option.elim_none]

end

/-! ### What the validator finds -/

/-- A file without errors has the same keys, with the same placeholders. -/
theorem text_of_check {source : Locale} {name source_text : Bytes}
    (h : check source.flat name l.flat = []) (hsource : source.text key = some source_text) :
    ∃ t, l.text key = some t ∧ (placeholders t).Perm (placeholders source_text) := by
  simp only [check, List.append_eq_nil_iff, List.map_eq_nil_iff, List.filter_eq_nil_iff,
    Bool.not_eq_true', Bool.not_eq_false, List.contains_iff_mem, decide_eq_true_eq, not_not] at h
  obtain ⟨⟨hmissing, -⟩, hplaceholders⟩ := h
  have hkey : key ∈ source.flat.keys := mem_keys_iff.mpr ⟨source_text, hsource⟩
  have hin := hmissing key hkey
  obtain ⟨t, ht⟩ := mem_keys_iff.mp hin
  refine ⟨t, ht, (signature_eq_iff.mp ?_).symm⟩
  have hsame := hplaceholders key (List.mem_filter.mpr ⟨hkey, List.contains_iff_mem.mpr hin⟩)
  have hvalue {l : Locale} {t : Bytes} (h : l.text key = some t) : l.flat.value key = t := by
    rw [Output.value, show l.flat.lookup key = some t from h]
    rfl
  rwa [hvalue hsource, hvalue ht] at hsame

theorem validate_ok {files : List (Bytes × Locale)} {references : List Bytes}
    (h : validate files references = .ok []) :
    ∃ source, files.lookup (str "pl") = some source ∧
      (∀ p ∈ files, check source.flat p.1 p.2.flat = []) ∧
      ∀ key ∈ references, ∃ t, source.text key = some t := by
  unfold validate at h
  split at h
  · cases h
  · rename_i source hsource
    simp only [Except.ok.injEq, List.append_eq_nil_iff, List.flatMap_eq_nil_iff,
      List.map_eq_nil_iff, List.filter_eq_nil_iff, Bool.not_eq_true', Bool.not_eq_false,
      List.contains_iff_mem, List.mem_eraseDups] at h
    exact ⟨source, hsource, h.1, fun key hkey => mem_keys_iff.mp (h.2 key hkey)⟩

/-! ### The page, in every run -/

namespace Page

variable (inherited : Property → Bytes → Option Property) (files : Language → Locale)

/-- What is loaded comes from the files, a call waits for what it needs, and the current language
is loaded unless it is the one the page begins with. -/
structure Inv (s : Page) : Prop where
  dictionaries : ∀ l d, s.dictionaries l = some d → d = files l
  calls : ∀ i c, s.calls i = some c → c.cached = true → (s.dictionaries c.loading).isSome
  language : s.language = fallbackLanguage ∨ (s.dictionaries s.language).isSome
  shown : ∀ f, s.shown = some f → ∃ l, ∀ key t, (files l).text key = some t → f key = t

variable {inherited files} {s : Page} {i : ℕ}

theorem Inv.setCall (h : Inv files s) {c : Option Pending}
    (hc : ∀ d, c = some d → d.cached = true → (s.dictionaries d.loading).isSome) :
    Inv files (s.setCall i c) := by
  refine ⟨h.dictionaries, fun j d hd => ?_, h.language, h.shown⟩
  rcases eq_or_ne j i with rfl | hne
  · exact hc d (by simpa [Page.setCall] using hd)
  · exact h.calls j d (by simpa [Page.setCall, hne] using hd)

/-- A download has arrived. -/
theorem Inv.load (h : Inv files s) (l : Language) :
    Inv files { s with dictionaries := Function.update s.dictionaries l (some (files l)) } := by
  have hmono : ∀ l', (s.dictionaries l').isSome →
      (Function.update s.dictionaries l (some (files l)) l').isSome := by
    intro l' hl'
    rw [Function.update_apply]
    split_ifs
    · rfl
    · exact hl'
  refine ⟨fun l' d hd => ?_, fun j c hc hcached => hmono _ (h.calls j c hc hcached),
    h.language.imp_right (hmono _), h.shown⟩
  simp only [Function.update_apply] at hd
  split_ifs at hd with heq
  · rw [heq]
    exact (Option.some.inj hd).symm
  · exact h.dictionaries l' d hd

/-- Both dictionaries are there: the language changes. -/
theorem Inv.finish (h : Inv files s) {l : Language} (hl : (s.dictionaries l).isSome) :
    Inv files (s.finish inherited i l) := by
  obtain ⟨d, hd⟩ := Option.isSome_iff_exists.mp hl
  obtain rfl := h.dictionaries l d hd
  have hcall := h.setCall (i := i) (c := none) (by rintro d ⟨⟩)
  refine ⟨hcall.dictionaries, hcall.calls, .inr hl, ?_⟩
  rintro f ⟨⟩
  refine ⟨l, fun key t ht => ?_⟩
  simp only [translate_of_text hd ht, interpolate_none]

theorem Inv.proceed (h : Inv files s) {c : Pending} (hc : (s.dictionaries c.loading).isSome) :
    Inv files (s.proceed inherited i c) := by
  unfold Page.proceed
  split_ifs with hlast
  · exact h.finish (by rw [← hlast]; exact hc)
  · refine h.setCall ?_
    rintro d ⟨⟩ hcached
    exact hcached

theorem Inv.next (h : Inv files s) (t : Turn) : Inv files (s.next inherited files t) := by
  cases t with
  | setLanguage i locale initial =>
    simp only [Page.next]
    cases s.calls i with
    | some c => exact h
    | none =>
      refine h.setCall ?_
      rintro d ⟨⟩ hcached
      exact hcached
  | loaded i ok =>
    simp only [Page.next]
    cases hc : s.calls i with
    | none => exact h
    | some c =>
      simp only
      split_ifs with hcached hok hinitial
      · exact h.proceed (h.calls i c hc hcached)
      · exact (h.load c.loading).proceed (by simp)
      · have hcall := h.setCall (i := i) (c := none) (by rintro d ⟨⟩)
        exact ⟨hcall.dictionaries, hcall.calls, .inl rfl, hcall.shown⟩
      · exact h.setCall (by rintro d ⟨⟩)

theorem inv_start : Inv files {} where
  dictionaries l d hd := by cases hd
  calls i c hc := by cases hc
  language := .inl rfl
  shown f hf := by cases hf

/-- In a state in which the current language is not loaded, nothing is loaded for it or in its
place. -/
theorem Inv.current (h : Inv files s) :
    s.dictionaries s.language = some (files s.language) ∨
      s.language = fallbackLanguage ∧ s.dictionaries fallbackLanguage = none := by
  cases hd : s.dictionaries s.language with
  | some d => exact .inl (by rw [h.dictionaries _ d hd])
  | none =>
    obtain hfallback | hloaded := h.language
    · exact .inr ⟨hfallback, by rw [← hfallback]; exact hd⟩
    · rw [hd] at hloaded
      cases hloaded

end Page

/-- **Validated texts are shown.**  The validator has found no error in the files, and those of the
two languages are among them.  Then in every run of the page each key in the page is in the Polish
file; for every key of this file, with values for the placeholders of its Polish text, the text is
that of the current language, which has the same placeholders, with all of them filled, or it is the
key, as long as the page is Polish and this file is not loaded; and what `applyTranslations` has put
into the page are the texts of one language. -/
theorem validated_texts_are_shown (inherited : Property → Bytes → Option Property)
    {files : List (Bytes × Locale)} {references : List Bytes}
    (hvalid : validate files references = .ok []) {served : Language → Locale}
    (hserved : ∀ l : Language, files.lookup l.name = some (served l)) (turns : List Turn) :
    let s := run (Page.next inherited served) {} turns
    (∀ key ∈ references, ∃ t, (served fallbackLanguage).text key = some t) ∧
    (∀ key source, (served fallbackLanguage).text key = some source →
      ∀ (parameters : Bytes → Option Bytes) (value : Bytes → Bytes),
        (∀ name ∈ placeholders source, parameters name = some (value name)) →
        (∃ t, (served s.language).text key = some t ∧
          (placeholders t).Perm (placeholders source) ∧
          translate inherited s.dictionaries s.language key parameters = filled t value) ∨
        (s.language = fallbackLanguage ∧ s.dictionaries fallbackLanguage = none) ∧
          translate inherited s.dictionaries s.language key parameters =
            interpolate key parameters) ∧
    ∀ f, s.shown = some f → ∃ l, ∀ key t, (served l).text key = some t → f key = t := by
  obtain ⟨source, hsource, hchecked, hreferences⟩ := validate_ok hvalid
  obtain rfl : source = served fallbackLanguage :=
    Option.some.inj (hsource.symm.trans (hserved fallbackLanguage))
  have hinv : Page.Inv served (run (Page.next inherited served) {} turns) :=
    run_invariant (I := Page.Inv served) (fun _ t hs => hs.next t) Page.inv_start turns
  refine ⟨hreferences, fun key text htext parameters value hvalues => ?_, hinv.shown⟩
  obtain hloaded | ⟨hlanguage, hnone⟩ := hinv.current
  · left
    obtain ⟨before, after, hfiles, -⟩ := List.lookup_eq_some_iff.mp
      (hserved (run (Page.next inherited served) {} turns).language)
    have hmem : ((run (Page.next inherited served) {} turns).language.name,
        served (run (Page.next inherited served) {} turns).language) ∈ files := by
      rw [hfiles]
      exact List.mem_append_right _ (List.mem_cons_self ..)
    obtain ⟨t, ht, hperm⟩ := text_of_check (hchecked _ hmem) htext
    refine ⟨t, ht, hperm, ?_⟩
    rw [translate_of_text hloaded ht]
    exact interpolate_of_covers fun name hname => hvalues name (hperm.mem_iff.mp hname)
  · right
    refine ⟨⟨hlanguage, hnone⟩, ?_⟩
    rw [hlanguage]
    exact translate_of_none hnone key parameters

/-- A file with one text. -/
def oneText (t : Bytes) : Dictionary := .group (str "ota") (.text (str "notice") t .empty) .empty

theorem plain_oneText (t : Bytes) : (oneText t).Plain := by
  refine ⟨?_, ?_, ⟨?_, ?_, trivial⟩, trivial⟩ <;> decide

def notice : Language → Locale
  | .pl => ⟨_, plain_oneText (str "Wersja {version}")⟩
  | .en => ⟨_, plain_oneText (str "Version {version} is ready")⟩

/-- The page is switched to English. -/
theorem notice_is_translated :
    let s := run (Page.next (fun _ _ => none) notice) {}
      [.setLanguage 0 (str "en-GB") true, .loaded 0 true, .loaded 0 true]
    translate (fun _ _ => none) s.dictionaries s.language (str "ota.notice")
      (fun _ => some (str "2")) = str "Version 2 is ready" := by
  have hvalid : validate [(str "en", notice .en), (str "pl", notice .pl)] [str "ota.notice"] =
      .ok [] := by rfl
  have htexts := (validated_texts_are_shown (fun _ _ => none) hvalid
    (fun l => by cases l <;> rfl)
    [.setLanguage 0 (str "en-GB") true, .loaded 0 true, .loaded 0 true]).2.1
  obtain ⟨t, ht, -, hfilled⟩ | ⟨⟨hlanguage, -⟩, -⟩ := htexts (str "ota.notice")
    (str "Wersja {version}") rfl (fun _ => some (str "2")) (fun _ => str "2") (fun _ _ => rfl)
  · obtain rfl : str "Version {version} is ready" = t := Option.some.inj ht
    exact hfilled
  · cases hlanguage

end Locales

end Panel

end HaPanel
