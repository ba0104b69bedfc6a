import HaPanel.Panel.Updates

/-!
# The order of versions

The portal compares versions with a function of several early returns.  Because it decides an order
of precedence (`compareVersions_decides`), its answers fit together whatever is compared, and for
the versions of the SemVer 2.0.0 grammar the order is the one of that standard.

A `SemanticVersion` is a version of the grammar, with its text.  `version_comparison_is_preorder` :
the answers are those of a total preorder, and of the precedence of SemVer.
-/

namespace HaPanel

namespace Panel

open Text SemVer

/-! ### The grammar -/

/-- One of `[0-9A-Za-z-]`. -/
def isIdentifierByte (c : UInt8) : Bool := isAlnum c || c == byte '-'

/-- A pre-release identifier: a numeral without leading zeros, or a word that is no numeral. -/
inductive PrereleaseIdentifier where
  | numeric (n : ℕ)
  | alphanumeric (s : Bytes) (hs : ∀ c ∈ s, isIdentifierByte c = true)
      (hword : ∃ c ∈ s, isDigit c = false)

abbrev BuildIdentifier := {s : Bytes // s ≠ [] ∧ ∀ c ∈ s, isIdentifierByte c = true}

/-- A version of SemVer 2.0.0. -/
structure SemanticVersion where
  major : ℕ
  minor : ℕ
  patch : ℕ
  prerelease : List PrereleaseIdentifier
  build : List BuildIdentifier

def PrereleaseIdentifier.text : PrereleaseIdentifier → Bytes
  | numeric n => decimal n
  | alphanumeric s _ _ => s

/-- Some identifiers behind the given byte, if there are any. -/
def suffixText (lead : UInt8) : List Bytes → Bytes
  | [] => []
  | identifiers => lead :: [byte '.'].intercalate identifiers

def SemanticVersion.text (v : SemanticVersion) : Bytes :=
  decimal v.major ++ byte '.' :: (decimal v.minor ++ byte '.' :: (decimal v.patch ++
    (suffixText (byte '-') (v.prerelease.map PrereleaseIdentifier.text) ++
      suffixText (byte '+') (v.build.map Subtype.val))))

def PrereleaseIdentifier.rank : PrereleaseIdentifier → ℕ ⊕ₗ List ℕ
  | numeric n => Sum.inlₗ n
  | alphanumeric s _ _ => Sum.inrₗ (codeUnits s)

/-- The precedence of the version.  The build does not count. -/
def SemanticVersion.precedence (v : SemanticVersion) : Precedence ℕ (List ℕ) :=
  (⟨v.major, v.minor, v.patch, v.prerelease.map PrereleaseIdentifier.rank⟩ :
    Version ℕ (List ℕ)).precedence

/-- The numbers of the version can be compared as doubles. -/
structure SemanticVersion.Representable (v : SemanticVersion) : Prop where
  major : v.major < 2 ^ 53
  minor : v.minor < 2 ^ 53
  patch : v.patch < 2 ^ 53
  prerelease : ∀ n, .numeric n ∈ v.prerelease → n < 2 ^ 53

/-! ### Identifiers -/

theorem isTagByte_of_isIdentifierByte {c : UInt8} (h : isIdentifierByte c = true) :
    isTagByte c = true ∧ c ≠ byte '.' :=
  forall_byte (p := fun c => isIdentifierByte c = true → isTagByte c = true ∧ c ≠ byte '.')
    (by decide +kernel) c h

theorem isIdentifierByte_of_isDigit {c : UInt8} (h : isDigit c = true) :
    isIdentifierByte c = true := by
  simp [isIdentifierByte, isAlnum, h]

theorem PrereleaseIdentifier.isIdentifierByte_of_mem (i : PrereleaseIdentifier) :
    ∀ c ∈ i.text, isIdentifierByte c = true := by
  cases i with
  | numeric n =>
    intro c hc
    exact isIdentifierByte_of_isDigit (isDigit_of_mem_decimal hc)
  | alphanumeric s hs hword => exact hs

theorem PrereleaseIdentifier.text_ne_nil (i : PrereleaseIdentifier) : i.text ≠ [] := by
  cases i with
  | numeric n => exact decimal_ne_nil n
  | alphanumeric s hs hword =>
    obtain ⟨c, hc, -⟩ := hword
    exact List.ne_nil_of_mem hc

theorem isNumeric_decimal (n : ℕ) : isNumeric (decimal n) = true := by
  rw [isNumeric, Bool.and_eq_true, List.all_eq_true]
  exact ⟨decide_eq_true (decimal_ne_nil n), fun d hd => isDigit_of_mem_decimal hd⟩

theorem isNumeric_of_word {s : Bytes} (h : ∃ c ∈ s, isDigit c = false) : isNumeric s = false := by
  obtain ⟨c, hc, hdigit⟩ := h
  rw [isNumeric, Bool.and_eq_false_iff, List.all_eq_false]
  exact .inr ⟨c, hc, by rw [hdigit]; decide⟩

/-- The portal takes an identifier for what it is. -/
theorem PrereleaseIdentifier.identifier_text (i : PrereleaseIdentifier) :
    identifier id i.text = i.rank := by
  cases i with
  | numeric n =>
    simp only [text, rank, identifier, isNumeric_decimal, if_true, digitsValue_decimal, id]
  | alphanumeric s hs hword =>
    simp only [text, rank, identifier, isNumeric_of_word hword, Bool.false_eq_true, if_false]

/-! ### Reading a version -/

section

variable {identifiers : List Bytes} {lead : UInt8}

theorem isTagByte_of_mem_intercalate
    (h : ∀ s ∈ identifiers, ∀ c ∈ s, isIdentifierByte c = true) :
    ∀ c ∈ [byte '.'].intercalate identifiers, isTagByte c = true := by
  induction identifiers with
  | nil => simp
  | cons s identifiers ih =>
    obtain ⟨hs, hrest⟩ := List.forall_mem_cons.1 h
    have hs' : ∀ c ∈ s, isTagByte c = true :=
      fun c hc => (isTagByte_of_isIdentifierByte (hs c hc)).1
    cases identifiers with
    | nil =>
      rw [List.intercalate_singleton]
      exact hs'
    | cons t identifiers =>
      rw [List.intercalate_cons_cons, List.forall_mem_append, List.forall_mem_append,
        List.forall_mem_singleton]
      exact ⟨⟨hs', by decide⟩, ih hrest⟩

theorem intercalate_ne_nil (hne : identifiers ≠ []) (h : ∀ s ∈ identifiers, s ≠ []) :
    [byte '.'].intercalate identifiers ≠ [] := by
  obtain ⟨s, identifiers, rfl⟩ := List.exists_cons_of_ne_nil hne
  have hs := (List.forall_mem_cons.1 h).1
  cases identifiers with
  | nil =>
    rw [List.intercalate_singleton]
    exact hs
  | cons t identifiers =>
    rw [List.intercalate_cons_cons, List.append_assoc]
    exact List.append_ne_nil_of_left_ne_nil hs _

theorem suffixText_of_ne_nil (hne : identifiers ≠ []) :
    suffixText lead identifiers = lead :: [byte '.'].intercalate identifiers := by
  obtain ⟨s, identifiers, rfl⟩ := List.exists_cons_of_ne_nil hne
  rfl

theorem matchBuild_suffixText (hne : ∀ s ∈ identifiers, s ≠ [])
    (h : ∀ s ∈ identifiers, ∀ c ∈ s, isIdentifierByte c = true) :
    matchBuild (suffixText (byte '+') identifiers) = true := by
  by_cases hempty : identifiers = []
  · rw [hempty]
    rfl
  · rw [suffixText_of_ne_nil hempty, matchBuild, Bool.and_eq_true, Bool.and_eq_true,
      List.all_eq_true]
    exact ⟨⟨by decide, decide_eq_true (intercalate_ne_nil hempty hne)⟩,
      isTagByte_of_mem_intercalate h⟩

/-- Neither a pre-release nor a build starts with a digit or a dot. -/
theorem head_suffixText {c : UInt8} (h : (suffixText lead identifiers).head? = some c) :
    c = lead := by
  by_cases hempty : identifiers = []
  · rw [hempty] at h
    cases h
  · rw [suffixText_of_ne_nil hempty] at h
    exact (Option.some.inj h).symm

end

theorem isTagByte_plus : isTagByte (byte '+') = false := by decide

/-- The pre-release is what stands between the minus and the plus. -/
theorem matchPrerelease_suffixText {identifiers builds : List Bytes}
    (hne : ∀ s ∈ identifiers, s ≠ [])
    (h : ∀ s ∈ identifiers, ∀ c ∈ s, isIdentifierByte c = true) (hne' : ∀ s ∈ builds, s ≠ [])
    (h' : ∀ s ∈ builds, ∀ c ∈ s, isIdentifierByte c = true) :
    matchPrerelease (suffixText (byte '-') identifiers ++ suffixText (byte '+') builds) =
      some ([byte '.'].intercalate identifiers) := by
  have hbuild := matchBuild_suffixText hne' h'
  by_cases hempty : identifiers = []
  · rw [hempty]
    show matchPrerelease (suffixText (byte '+') builds) = some []
    by_cases hempty' : builds = []
    · rw [hempty']
      rfl
    · rw [suffixText_of_ne_nil hempty'] at hbuild ⊢
      rw [matchPrerelease, if_neg (by decide), if_pos hbuild]
  · have htag := isTagByte_of_mem_intercalate h
    have hstop : (suffixText (byte '+') builds).takeWhile isTagByte = [] ∧
        (suffixText (byte '+') builds).dropWhile isTagByte = suffixText (byte '+') builds := by
      by_cases hempty' : builds = []
      · rw [hempty']
        exact ⟨rfl, rfl⟩
      · rw [suffixText_of_ne_nil hempty', List.takeWhile_cons, List.dropWhile_cons,
          isTagByte_plus]
        exact ⟨rfl, rfl⟩
    rw [suffixText_of_ne_nil hempty, List.cons_append, matchPrerelease, if_pos rfl,
      List.takeWhile_append_of_pos htag, List.dropWhile_append_of_pos htag, hstop.1, hstop.2,
      List.append_nil, if_pos ⟨intercalate_ne_nil hempty hne, hbuild⟩]

theorem matchDigits_decimal (n : ℕ) {s : Bytes}
    (hs : ∀ c, s.head? = some c → isDigit c = false) :
    matchDigits (decimal n ++ s) = some (decimal n, s) := by
  obtain ⟨htake, hdrop⟩ := span_decimal n hs
  rw [matchDigits, htake, hdrop, if_neg (decimal_ne_nil n)]

theorem skipV_decimal (n : ℕ) (s : Bytes) : skipV (decimal n ++ s) = decimal n ++ s := by
  obtain ⟨d, ds, hd⟩ := List.exists_cons_of_ne_nil (decimal_ne_nil n)
  have hdigit : isDigit d = true := isDigit_of_mem_decimal (n := n) (by rw [hd]; simp)
  have hv : d ≠ byte 'v' := by
    rintro rfl
    cases hdigit
  rw [hd, List.cons_append, skipV, if_neg hv]

namespace SemanticVersion

variable (v : SemanticVersion)

/-- The groups of the text of a version. -/
def groups : VersionMatch where
  major := decimal v.major
  minor := decimal v.minor
  patch := decimal v.patch
  prerelease := [byte '.'].intercalate (v.prerelease.map PrereleaseIdentifier.text)

theorem text_ne_nil : ∀ s ∈ v.prerelease.map PrereleaseIdentifier.text, s ≠ [] := by
  rw [List.forall_mem_map]
  exact fun i _ => i.text_ne_nil

theorem isIdentifierByte_of_mem : ∀ s ∈ v.prerelease.map PrereleaseIdentifier.text,
    ∀ c ∈ s, isIdentifierByte c = true := by
  rw [List.forall_mem_map]
  exact fun i _ => i.isIdentifierByte_of_mem

/-- **The portal accepts every version of the grammar**, and reads it right. -/
theorem matchVersion_text : matchVersion v.text = some v.groups := by
  have hdot : ∀ s : Bytes, ∀ c, (byte '.' :: s).head? = some c → isDigit c = false := by
    intro s c hc
    rw [← Option.some.inj hc]
    rfl
  have hpatch : ∀ c, (suffixText (byte '-') (v.prerelease.map PrereleaseIdentifier.text) ++
      suffixText (byte '+') (v.build.map Subtype.val)).head? = some c → isDigit c = false := by
    intro c hc
    rw [List.head?_append] at hc
    cases hhead : (suffixText (byte '-') (v.prerelease.map PrereleaseIdentifier.text)).head? with
    | none =>
      rw [hhead, Option.none_or] at hc
      rw [head_suffixText hc]
      rfl
    | some d =>
      rw [hhead, Option.some_or] at hc
      rw [← Option.some.inj hc, head_suffixText hhead]
      rfl
  have hbuild : ∀ s ∈ v.build.map Subtype.val, s ≠ [] := by
    rw [List.forall_mem_map]
    exact fun b _ => b.2.1
  have hbuild' : ∀ s ∈ v.build.map Subtype.val, ∀ c ∈ s, isIdentifierByte c = true := by
    rw [List.forall_mem_map]
    exact fun b _ => b.2.2
  have hpre := matchPrerelease_suffixText v.text_ne_nil v.isIdentifierByte_of_mem hbuild hbuild'
  rw [text, matchVersion, skipV_decimal, matchDigits_decimal _ (hdot _)]
  simp only [Option.bind_eq_bind, Option.bind_some, matchDot, if_true]
  rw [matchDigits_decimal _ (hdot _)]
  simp only [Option.bind_some, if_true]
  rw [matchDigits_decimal _ hpatch]
  simp only [Option.bind_some, hpre]
  rfl

theorem identifiers_groups :
    v.groups.identifiers = v.prerelease.map PrereleaseIdentifier.text := by
  unfold VersionMatch.identifiers groups
  by_cases hempty : v.prerelease.map PrereleaseIdentifier.text = []
  · rw [hempty]
    rfl
  · have hdots : ∀ s ∈ v.prerelease.map PrereleaseIdentifier.text, byte '.' ∉ s :=
      fun s hs hmem => (isTagByte_of_isIdentifierByte (v.isIdentifierByte_of_mem s hs _ hmem)).2 rfl
    rw [if_pos (intercalate_ne_nil hempty v.text_ne_nil), List.splitOn_intercalate _ hdots hempty]

theorem precedence_groups : (v.groups.version id).precedence = v.precedence := by
  have hprerelease : (v.groups.version id).prerelease =
      v.prerelease.map PrereleaseIdentifier.rank := by
    rw [VersionMatch.version_prerelease, identifiers_groups, List.map_map]
    exact List.map_congr_left fun i _ => i.identifier_text
  rw [Version.precedence, precedence, Version.precedence, hprerelease]
  simp only [groups, VersionMatch.version, digitsValue_decimal, id]

variable {v}

theorem Representable.numeralsIn (h : v.Representable) : v.groups.NumeralsIn (· < 2 ^ 53) := by
  constructor
  case major =>
    rw [groups, digitsValue_decimal]
    exact h.major
  case minor =>
    rw [groups, digitsValue_decimal]
    exact h.minor
  case patch =>
    rw [groups, digitsValue_decimal]
    exact h.patch
  case prerelease =>
    rw [identifiers_groups, List.forall_mem_map]
    intro i hi hnumeric
    cases i with
    | numeric n =>
      rw [PrereleaseIdentifier.text, digitsValue_decimal]
      exact h.prerelease n hi
    | alphanumeric s hs hword =>
      rw [PrereleaseIdentifier.text, isNumeric_of_word hword] at hnumeric
      cases hnumeric

end SemanticVersion

/-! ### The result -/

/-- Below `2 ^ 53` the doubles are ordered as the numbers. -/
theorem decides_toDouble (m n : ℕ) (hm : m < 2 ^ 53) (hn : n < 2 ^ 53) :
    Decides (compare (toDouble m) (toDouble n)) (id m) (id n) := by
  have hcompare := decides_compare (toDouble m) (toDouble n)
  rw [toDouble_of_lt hm, toDouble_of_lt hn] at hcompare ⊢
  exact ⟨hcompare.lt_iff.trans Double.ofNat_lt_ofNat, hcompare.gt_iff.trans Double.ofNat_lt_ofNat⟩

theorem exists_match_of_parseVersion {version : Bytes} (h : (parseVersion version).isSome) :
    ∃ m, matchVersion version = some m := by
  rw [parseVersion, Option.isSome_map] at h
  exact Option.isSome_iff_exists.1 h

/-- Where there is an answer, both versions are accepted and the answer is right. -/
theorem exists_match_of_compareVersions {a b : Bytes} {o : Ordering}
    (h : compareVersions a b = some o) :
    ∃ m n, matchVersion a = some m ∧ matchVersion b = some n ∧
      Decides o (m.version toDouble).precedence (n.version toDouble).precedence := by
  have haccept : (parseVersion a).isSome ∧ (parseVersion b).isSome := by
    unfold compareVersions at h
    split at h
    next ha hb => exact ⟨by rw [ha]; rfl, by rw [hb]; rfl⟩
    next => cases h
  obtain ⟨m, hm⟩ := exists_match_of_parseVersion haccept.1
  obtain ⟨n, hn⟩ := exists_match_of_parseVersion haccept.2
  obtain ⟨o', ho', hdecides⟩ := compareVersions_eq hm hn
  obtain rfl : o' = o := Option.some.inj (ho'.symm.trans h)
  exact ⟨m, n, hm, hn, hdecides⟩

/-- **The comparison of versions is a total preorder.**  Any two accepted versions are compared, and
the other way round with the opposite answer; answers that do not say *greater* can be chained; and
versions of the SemVer grammar with numbers below `2 ^ 53` are compared by their precedence. -/
theorem version_comparison_is_preorder :
    (∀ a b, (parseVersion a).isSome → (parseVersion b).isSome →
      ∃ o, compareVersions a b = some o ∧ compareVersions b a = some o.swap) ∧
    (∀ a b c o o', compareVersions a b = some o → compareVersions b c = some o' →
      o.isLE = true → o'.isLE = true → compareVersions a c = some (o.then o')) ∧
    ∀ v w : SemanticVersion, v.Representable → w.Representable →
      ∃ o, compareVersions v.text w.text = some o ∧ Decides o v.precedence w.precedence := by
  refine ⟨?_, ?_, ?_⟩
  · intro a b ha hb
    obtain ⟨m, hm⟩ := exists_match_of_parseVersion ha
    obtain ⟨n, hn⟩ := exists_match_of_parseVersion hb
    obtain ⟨o, ho, hdecides⟩ := compareVersions_eq hm hn
    obtain ⟨o', ho', hdecides'⟩ := compareVersions_eq hn hm
    rw [hdecides'.unique hdecides.swap] at ho'
    exact ⟨o, ho, ho'⟩
  · intro a b c o o' hab hbc hle hle'
    obtain ⟨m, n, hm, hn, hdecides⟩ := exists_match_of_compareVersions hab
    obtain ⟨n', p, hn', hp, hdecides'⟩ := exists_match_of_compareVersions hbc
    obtain rfl : n = n' := Option.some.inj (hn.symm.trans hn')
    obtain ⟨o'', ho'', hdecides''⟩ := compareVersions_eq hm hp
    rw [ho'', hdecides''.unique (hdecides.trans hdecides' hle hle')]
  · intro v w hv hw
    obtain ⟨o, ho, hdecides⟩ := compareVersions_decides decides_toDouble v.matchVersion_text
      w.matchVersion_text hv.numeralsIn hw.numeralsIn
    rw [v.precedence_groups, w.precedence_groups] at hdecides
    exact ⟨o, ho, hdecides⟩

theorem isIdentifierByte_beta : ∀ c ∈ str "beta", isIdentifierByte c = true := by decide +kernel

theorem beta_word : ∃ c ∈ str "beta", isDigit c = false := by decide +kernel

/-- The pre-release `1.0.0-beta.n`. -/
def betaVersion (n : ℕ) : SemanticVersion where
  major := 1
  minor := 0
  patch := 0
  prerelease := [.alphanumeric (str "beta") isIdentifierByte_beta beta_word, .numeric n]
  build := []

theorem representable_betaVersion {n : ℕ} (h : n < 2 ^ 53) : (betaVersion n).Representable where
  major := show 1 < 2 ^ 53 by decide
  minor := show 0 < 2 ^ 53 by decide
  patch := show 0 < 2 ^ 53 by decide
  prerelease m hm := by
    simp only [betaVersion, List.mem_cons, PrereleaseIdentifier.numeric.injEq, reduceCtorEq,
      List.not_mem_nil, false_or, or_false] at hm
    rwa [hm]

/-- The second pre-release is before the eleventh one, and this is before the release. -/
theorem beta_versions_compared :
    compareVersions (str "1.0.0-beta.11") (str "1.0.0-beta.2") = some .gt ∧
      compareVersions (str "1.0.0-beta.2") (str "1.0.0") = some .lt ∧
      (betaVersion 2).text = str "1.0.0-beta.2" ∧ (betaVersion 11).text = str "1.0.0-beta.11" ∧
      (betaVersion 2).precedence < (betaVersion 11).precedence := by
  obtain ⟨hswap, hchain, hsemver⟩ := version_comparison_is_preorder
  have hlt : compareVersions (str "1.0.0-beta.2") (str "1.0.0-beta.11") = some .lt := by
    decide +kernel
  have hrelease : compareVersions (str "1.0.0-beta.11") (str "1.0.0") = some .lt := by
    decide +kernel
  have htext : (betaVersion 2).text = str "1.0.0-beta.2" ∧
      (betaVersion 11).text = str "1.0.0-beta.11" := by
    decide +kernel
  obtain ⟨o, ho, hother⟩ := hswap (str "1.0.0-beta.2") (str "1.0.0-beta.11")
    (by decide +kernel) (by decide +kernel)
  obtain rfl : o = .lt := Option.some.inj (ho.symm.trans hlt)
  obtain ⟨o', ho', hdecides⟩ := hsemver (betaVersion 2) (betaVersion 11)
    (representable_betaVersion (by decide)) (representable_betaVersion (by decide))
  rw [htext.1, htext.2] at ho'
  obtain rfl : o' = .lt := Option.some.inj (ho'.symm.trans hlt)
  exact ⟨hother, hchain _ _ _ _ _ hlt hrelease rfl rfl, htext.1, htext.2, hdecides.lt_iff.mp rfl⟩

end Panel

end HaPanel
