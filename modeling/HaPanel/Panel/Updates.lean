import HaPanel.Panel.Status
import HaPanel.Text.SemVer

/-!
# The two update checks

The panel and the web portal both compare the tag of the latest release with the installed version.
The portal does it by precedence (`compareVersions`), the panel only asks whether the two texts
differ (`check_ota_async_timer_cb`).

`update_checks_agree_iff` says for which releases the two agree, and
`older_release_is_offered` has one for which they do not.
-/

namespace HaPanel

namespace Panel

open Text SemVer

/-! ### Numbers of the portal -/

/-- The doubles that stand for numerals: whole numbers and infinity. -/
def Double : Type := WithTop ℕ

namespace Double

def ofNat (n : ℕ) : Double := WithTop.some n

def infinity : Double := (⊤ : WithTop ℕ)

instance : LinearOrder Double := @WithTop.linearOrder ℕ Nat.instLinearOrder

theorem ofNat_lt_ofNat {m n : ℕ} : ofNat m < ofNat n ↔ m < n := WithTop.coe_lt_coe

end Double

/-- The value `Number` gives for a numeral: the nearest integer with 53 significant bits, the even
one of two, and infinity from `2 ^ 1024` on. -/
def toDouble (n : ℕ) : Double :=
  let shift := n.log2 - 52
  let significand := n >>> shift
  let rest := n % 2 ^ shift
  let rounded :=
    if 2 ^ shift < 2 * rest ∨ (2 ^ shift = 2 * rest ∧ significand % 2 = 1) then significand + 1
    else significand
  if rounded <<< shift < 2 ^ 1024 then .ofNat (rounded <<< shift) else .infinity

/-- Numbers below `2 ^ 53` are kept. -/
theorem toDouble_of_lt {n : ℕ} (h : n < 2 ^ 53) : toDouble n = .ofNat n := by
  have hshift : n.log2 - 52 = 0 := by
    by_cases h0 : n = 0
    · subst h0
      decide
    · have := (Nat.log2_lt h0).2 h
      omega
  have hpow (k : ℕ) (hk : 53 ≤ k) : n < 2 ^ k := h.trans_le (Nat.pow_le_pow_right Nat.two_pos hk)
  have hlt := hpow 1024 (by decide)
  simp only [toDouble, hshift, pow_zero, Nat.mod_one, mul_zero, Nat.not_lt_zero, one_ne_zero,
    false_and, or_false, if_false, Nat.shiftRight_zero, Nat.shiftLeft_zero, if_pos hlt]

/-! ### The portal -/

/-- One of `[0-9A-Za-z.-]`. -/
def isTagByte (c : UInt8) : Bool := isAlnum c || c == byte '.' || c == byte '-'

/-- The groups of the regular expression in `parseVersion`; `prerelease` is empty if the group did
not take part. -/
structure VersionMatch where
  major : Bytes
  minor : Bytes
  patch : Bytes
  prerelease : Bytes
  deriving DecidableEq

/-- `(\d+)`, with what follows. -/
def matchDigits (s : Bytes) : Option (Bytes × Bytes) :=
  let digits := s.takeWhile isDigit
  if digits = [] then none else some (digits, s.dropWhile isDigit)

/-- `\.` -/
def matchDot : Bytes → Option Bytes
  | [] => none
  | c :: s => if c = byte '.' then some s else none

/-- `(?:\+[0-9A-Za-z.-]+)?$` -/
def matchBuild : Bytes → Bool
  | [] => true
  | c :: s => c = byte '+' && s ≠ [] && s.all isTagByte

/-- `(?:-([0-9A-Za-z.-]+))?(?:\+[0-9A-Za-z.-]+)?$`.  A plus is not in the class, so the first group
ends where it must. -/
def matchPrerelease : Bytes → Option Bytes
  | [] => some []
  | c :: s =>
    if c = byte '-' then
      let prerelease := s.takeWhile isTagByte
      if prerelease ≠ [] ∧ matchBuild (s.dropWhile isTagByte) then some prerelease else none
    else if matchBuild (c :: s) then some [] else none

/-- `v?` -/
def skipV : Bytes → Bytes
  | [] => []
  | c :: s => if c = byte 'v' then s else c :: s

/-- `String(version || '').match(...)` -/
def matchVersion (version : Bytes) : Option VersionMatch := do
  let (major, s) ← matchDigits (skipV version)
  let (minor, s) ← matchDigits (← matchDot s)
  let (patch, s) ← matchDigits (← matchDot s)
  let prerelease ← matchPrerelease s
  return ⟨major, minor, patch, prerelease⟩

structure ParsedVersion where
  core : Double × Double × Double
  prerelease : List Bytes
  deriving DecidableEq

/-- `Number(digits)` -/
def number (digits : Bytes) : Double := toDouble (digitsValue digits)

def parseVersion (version : Bytes) : Option ParsedVersion :=
  (matchVersion version).map fun m =>
    { core := (number m.major, number m.minor, number m.patch)
      prerelease := if m.prerelease ≠ [] then m.prerelease.splitOn (byte '.') else [] }

/-- `/^\d+$/.test(identifier)` -/
def isNumeric (identifier : Bytes) : Bool := identifier ≠ [] && identifier.all isDigit

/-- The numbers by which strings are compared. -/
def codeUnits (s : Bytes) : List ℕ := s.map UInt8.toNat

/-- One round of the loop over the identifiers; `.eq` goes on to the next round. -/
def compareIdentifiers (a b : Bytes) : Ordering :=
  let aNumeric := isNumeric a
  let bNumeric := isNumeric b
  if aNumeric && bNumeric then compare (number a) (number b)
  else if aNumeric ≠ bNumeric then if aNumeric then .lt else .gt
  else if a ≠ b then if codeUnits a < codeUnits b then .lt else .gt
  else .eq

/-- The loop over the identifiers. -/
def comparePrerelease : List Bytes → List Bytes → Ordering
  | [], [] => .eq
  | [], _ :: _ => .lt
  | _ :: _, [] => .gt
  | a :: as, b :: bs => (compareIdentifiers a b).then (comparePrerelease as bs)

/-- The sign of the number that `compareVersions` returns for two versions.  A difference of two
doubles is zero only if they are equal, and not a number if both are infinite. -/
def compareParsed (a b : ParsedVersion) : Ordering :=
  (compare a.core.1 b.core.1).then <|
    (compare a.core.2.1 b.core.2.1).then <|
      (compare a.core.2.2 b.core.2.2).then <|
        if a.prerelease = [] ∧ b.prerelease = [] then .eq
        else if a.prerelease = [] then .gt
        else if b.prerelease = [] then .lt
        else comparePrerelease a.prerelease b.prerelease

/-- `compareVersions`; `none` where it throws. -/
def compareVersions (left right : Bytes) : Option Ordering :=
  match parseVersion left, parseVersion right with
  | some a, some b => some (compareParsed a b)
  | _, _ => none

/-- `updateCheckState` -/
inductive UpdateCheckState where
  | error
  | checked (current latest : Bytes) (available : Bool)
  deriving DecidableEq

/-- `checkForUpdate`: `version` is that of the status page and `tagName` that of the release, if
there are any. -/
def checkForUpdate (version tagName : Option Bytes) : UpdateCheckState :=
  match version, tagName with
  | some current, some latest =>
    if current = [] ∨ latest = [] then .error
    else match compareVersions latest current with
      | none => .error
      | some o => .checked current latest (o == .gt)
  | _, _ => .error

/-! ### The panel -/

/-- What a click on the button of the updates screen does. -/
inductive UpdateAction where
  /-- `check_ota_btn_cb` -/
  | check
  /-- `start_ota_btn_cb` -/
  | install
  deriving DecidableEq

/-- The updates screen. -/
structure UpdatesScreen where
  statusTitle : Bytes
  statusSub : Bytes
  actionLabel : Bytes
  actionEnabled : Bool
  action : UpdateAction
  deriving DecidableEq

/-- `check_ota_async_timer_cb` of a panel with the given version; `release` is the tag that
`check_github_release` finds, if it succeeds. -/
def checkOtaAsyncTimerCb (version : Bytes) (release : Option Bytes) :
    Option UpdatesScreen → Option UpdatesScreen
  | none => none
  | some s => some <| match release with
    | none => { s with
        statusSub := str "Błąd połączenia z GitHub API."
        actionLabel := str "Spróbuj ponownie"
        actionEnabled := true }
    | some tag =>
      if tag = version then { s with
        statusTitle := str "Brak nowych aktualizacji"
        statusSub := str "✓ Posiadasz najnowszą wersję (" ++ version ++ str ")."
        actionLabel := str "Sprawdź ponownie"
        actionEnabled := true }
      else { s with
        statusTitle := str "Dostępna nowa wersja!"
        statusSub := str "Wersja " ++ tag ++ str " jest dostępna na GitHubie."
        actionLabel := str "Zaktualizuj do " ++ tag
        actionEnabled := true
        action := .install }

/-! ### Precedence -/

section

variable {N : Type*} (num : ℕ → N)

/-- An identifier as a number or a word. -/
def identifier (s : Bytes) : N ⊕ₗ List ℕ :=
  if isNumeric s then Sum.inlₗ (num (digitsValue s)) else Sum.inrₗ (codeUnits s)

/-- The version a match stands for, when numerals are read with `num`. -/
def VersionMatch.version (m : VersionMatch) : Version N (List ℕ) where
  major := num (digitsValue m.major)
  minor := num (digitsValue m.minor)
  patch := num (digitsValue m.patch)
  prerelease :=
    if m.prerelease ≠ [] then (m.prerelease.splitOn (byte '.')).map (identifier num) else []

/-- The pre-release identifiers of a match. -/
def VersionMatch.identifiers (m : VersionMatch) : List Bytes :=
  if m.prerelease ≠ [] then m.prerelease.splitOn (byte '.') else []

theorem VersionMatch.version_prerelease (m : VersionMatch) :
    (m.version num).prerelease = m.identifiers.map (identifier num) := by
  unfold VersionMatch.version VersionMatch.identifiers
  dsimp only
  split_ifs <;> rfl

end

/-- The numerals of an identifier are among those in `P`. -/
def NumeralsIn (P : ℕ → Prop) (s : Bytes) : Prop := isNumeric s = true → P (digitsValue s)

/-- All numerals of a match are among those in `P`. -/
structure VersionMatch.NumeralsIn (P : ℕ → Prop) (m : VersionMatch) : Prop where
  major : P (digitsValue m.major)
  minor : P (digitsValue m.minor)
  patch : P (digitsValue m.patch)
  prerelease : ∀ s ∈ m.identifiers, Panel.NumeralsIn P s

theorem codeUnits_injective : Function.Injective codeUnits :=
  List.map_injective_iff.2 fun _ _ => UInt8.toNat_inj.1

section

variable {N : Type*} [LinearOrder N] {num : ℕ → N} {P : ℕ → Prop}

variable (hnum : ∀ m n, P m → P n → Decides (compare (toDouble m) (toDouble n)) (num m) (num n))

include hnum

theorem decides_compareIdentifiers {a b : Bytes} (ha : NumeralsIn P a) (hb : NumeralsIn P b) :
    Decides (compareIdentifiers a b) (identifier num a) (identifier num b) := by
  unfold compareIdentifiers identifier
  cases hna : isNumeric a <;> cases hnb : isNumeric b
  · -- two words
    by_cases hab : a = b
    · subst hab
      simpa using decides_eq _
    · simp only [Bool.and_self, Bool.false_eq_true, if_false, ne_eq, not_true, hab, not_false_iff,
        if_true]
      split_ifs with hlt
      · exact (decides_of_lt hlt).inr
      · have hne : codeUnits b ≠ codeUnits a := fun h => hab (codeUnits_injective h).symm
        exact (decides_of_gt (lt_of_le_of_ne (not_lt.1 hlt) hne)).inr
  · exact decides_of_gt (Sum.Lex.inl_lt_inr _ _)
  · exact decides_of_lt (Sum.Lex.inl_lt_inr _ _)
  · exact (hnum _ _ (ha hna) (hb hnb)).inl

/-- The loop follows the order of the lists. -/
theorem decides_comparePrerelease {as bs : List Bytes} (has : ∀ a ∈ as, NumeralsIn P a)
    (hbs : ∀ b ∈ bs, NumeralsIn P b) :
    Decides (comparePrerelease as bs) (as.map (identifier num)) (bs.map (identifier num)) := by
  induction as generalizing bs with
  | nil =>
    cases bs with
    | nil => exact decides_eq _
    | cons b bs => exact decides_nil_cons _ _
  | cons a as ih =>
    cases bs with
    | nil => exact decides_cons_nil _ _
    | cons b bs =>
      obtain ⟨ha, has⟩ := List.forall_mem_cons.1 has
      obtain ⟨hb, hbs⟩ := List.forall_mem_cons.1 hbs
      exact (decides_compareIdentifiers hnum ha hb).cons (ih has hbs)

theorem decides_stage {as bs : List Bytes} (has : ∀ a ∈ as, NumeralsIn P a)
    (hbs : ∀ b ∈ bs, NumeralsIn P b) :
    Decides
      (if as = [] ∧ bs = [] then .eq else if as = [] then .gt else if bs = [] then .lt
        else comparePrerelease as bs)
      (Version.stage (as.map (identifier num)))
      (Version.stage (bs.map (identifier num))) := by
  have hloop := decides_comparePrerelease hnum has hbs
  cases as with
  | nil =>
    cases bs with
    | nil => exact decides_eq _
    | cons b bs => exact decides_of_gt (WithTop.coe_lt_top _)
  | cons a as =>
    cases bs with
    | nil => exact decides_of_lt (WithTop.coe_lt_top _)
    | cons b bs => exact hloop.coe

/-- The portal compares by precedence as long as it compares the numbers right. -/
theorem compareVersions_decides {left right : Bytes} {m n : VersionMatch}
    (hm : matchVersion left = some m) (hn : matchVersion right = some n) (hPm : m.NumeralsIn P)
    (hPn : n.NumeralsIn P) :
    ∃ o, compareVersions left right = some o ∧
      Decides o (m.version num).precedence (n.version num).precedence := by
  refine ⟨_, by simp only [compareVersions, parseVersion, hm, hn, Option.map_some]; rfl, ?_⟩
  rw [compareParsed, ← Ordering.then_assoc, ← Ordering.then_assoc,
    Ordering.then_assoc (compare _ _)]
  simp only [Version.precedence, VersionMatch.version_prerelease]
  exact ((hnum _ _ hPm.major hPn.major).toLex ((hnum _ _ hPm.minor hPn.minor).toLex
    (hnum _ _ hPm.patch hPn.patch))).toLex (decides_stage hnum hPm.prerelease hPn.prerelease)

end

/-- **The portal compares by precedence**, with numbers as doubles. -/
theorem compareVersions_eq {left right : Bytes} {m n : VersionMatch}
    (hm : matchVersion left = some m) (hn : matchVersion right = some n) :
    ∃ o, compareVersions left right = some o ∧
      Decides o (m.version toDouble).precedence (n.version toDouble).precedence :=
  compareVersions_decides (P := fun _ => True) (fun _ _ _ _ => decides_compare _ _) hm hn
    ⟨trivial, trivial, trivial, fun _ _ _ => trivial⟩
    ⟨trivial, trivial, trivial, fun _ _ _ => trivial⟩

/-! ### The checks compared -/

/-- The release `tag` has higher precedence than the installed version, when numerals are read with
`num`. -/
def Newer {N : Type*} [LinearOrder N] (num : ℕ → N) (installed tag : Bytes) : Prop :=
  ∃ m ∈ matchVersion installed, ∃ n ∈ matchVersion tag,
    (m.version num).precedence < (n.version num).precedence

/-- The button of the updates screen installs the release after the check. -/
def PanelOffers (screen : UpdatesScreen) (installed tag : Bytes) : Prop :=
  ∃ s ∈ checkOtaAsyncTimerCb installed (some tag) (some screen), s.action = .install

/-- The portal says that an update is available. -/
def PortalOffers (installed tag : Bytes) : Prop :=
  checkForUpdate (some installed) (some tag) = .checked installed tag true

/-- Both checks offer the release or none does, and what is offered has higher precedence. -/
structure ChecksAgree (screen : UpdatesScreen) (installed tag : Bytes) : Prop where
  agree : PanelOffers screen installed tag ↔ PortalOffers installed tag
  newer : PanelOffers screen installed tag ∨ PortalOffers installed tag → Newer id installed tag

theorem panelOffers_iff {screen : UpdatesScreen} (hscreen : screen.action = .check)
    (installed tag : Bytes) : PanelOffers screen installed tag ↔ tag ≠ installed := by
  unfold PanelOffers checkOtaAsyncTimerCb
  by_cases h : tag = installed
  · simp [h, hscreen]
  · simp [h]

theorem portalOffers_iff {installed tag : Bytes} (hinstalled : (parseVersion installed).isSome)
    (htag : (parseVersion tag).isSome) :
    PortalOffers installed tag ↔ Newer toDouble installed tag := by
  rw [parseVersion, Option.isSome_map] at hinstalled htag
  obtain ⟨m, hm⟩ := Option.isSome_iff_exists.1 hinstalled
  obtain ⟨n, hn⟩ := Option.isSome_iff_exists.1 htag
  have hempty : matchVersion [] = none := rfl
  have hne₁ : installed ≠ [] := by
    rintro rfl
    simp [hempty] at hm
  have hne₂ : tag ≠ [] := by
    rintro rfl
    simp [hempty] at hn
  obtain ⟨o, ho, hdecides⟩ := compareVersions_eq hn hm
  have hportal : PortalOffers installed tag ↔ o = .gt := by
    simp [PortalOffers, checkForUpdate, hne₁, hne₂, ho]
  have hnewer : Newer toDouble installed tag ↔
      (m.version toDouble).precedence < (n.version toDouble).precedence := by
    simp [Newer, hm, hn]
  rw [hportal, hnewer]
  exact hdecides.gt_iff

/-- **When the two update checks agree**: the release is the installed one, letter for letter, or it
has higher precedence, with its numbers as they are and as doubles. -/
theorem update_checks_agree_iff {screen : UpdatesScreen} (hscreen : screen.action = .check)
    {installed tag : Bytes} (hinstalled : (parseVersion installed).isSome)
    (htag : (parseVersion tag).isSome) :
    ChecksAgree screen installed tag ↔
      tag = installed ∨ (Newer id installed tag ∧ Newer toDouble installed tag) := by
  have hpanel := panelOffers_iff hscreen installed tag
  have hportal := portalOffers_iff hinstalled htag
  constructor
  · intro h
    by_cases heq : tag = installed
    · exact .inl heq
    · have hoffers := hpanel.2 heq
      exact .inr ⟨h.newer (.inl hoffers), hportal.1 (h.agree.1 hoffers)⟩
  · rintro (rfl | ⟨hexact, hdouble⟩)
    · -- the panel does not offer the installed version, and no version is newer than itself
      have hno : ¬ PanelOffers screen tag tag := fun h => hpanel.1 h rfl
      have hno' : ¬ PortalOffers tag tag := by
        rw [hportal]
        rintro ⟨m, hm, n, hn, hlt⟩
        obtain rfl : m = n := Option.some.inj (hm.symm.trans hn)
        exact lt_irrefl _ hlt
      exact ⟨iff_of_false hno hno', fun h => absurd h (not_or.2 ⟨hno, hno'⟩)⟩
    · have hne : tag ≠ installed := by
        rintro rfl
        obtain ⟨m, hm, n, hn, hlt⟩ := hexact
        obtain rfl : m = n := Option.some.inj (hm.symm.trans hn)
        exact lt_irrefl _ hlt
      exact ⟨iff_of_true (hpanel.2 hne) (hportal.2 hdouble), fun _ => hexact⟩

/-- The updates screen while the release is looked up. -/
def checkingScreen : UpdatesScreen where
  statusTitle := str "Status aktualizacji"
  statusSub := str "Łączenie z GitHub API..."
  actionLabel := str "Sprawdzanie..."
  actionEnabled := false
  action := .check

theorem newer_minor {N : Type*} [LinearOrder N] {num : ℕ → N} (h : num 9 < num 10) :
    Newer num currentVersion (str "v1.10.0") := by
  refine ⟨⟨str "1", str "9", str "11", []⟩, by decide +kernel,
    ⟨str "1", str "10", str "0", []⟩, by decide +kernel, ?_⟩
  have hminor : digitsValue (str "9") = 9 ∧ digitsValue (str "10") = 10 := by decide +kernel
  simp [VersionMatch.version, Version.precedence, Prod.Lex.toLex_lt_toLex, hminor, h]

/-- The next minor release is offered by both. -/
theorem minor_release_is_offered_by_both :
    ChecksAgree checkingScreen currentVersion (str "v1.10.0") := by
  refine (update_checks_agree_iff rfl (by decide +kernel) (by decide +kernel)).2
    (.inr ⟨newer_minor (by decide), newer_minor ?_⟩)
  rw [toDouble_of_lt (by decide), toDouble_of_lt (by decide), Double.ofNat_lt_ofNat]
  decide

/-- **An older release is offered** by the panel, and not by the portal. -/
theorem older_release_is_offered :
    PanelOffers checkingScreen currentVersion (str "v1.9.10") ∧
      ¬ PortalOffers currentVersion (str "v1.9.10") ∧
      ¬ ChecksAgree checkingScreen currentVersion (str "v1.9.10") := by
  have hpanel : PanelOffers checkingScreen currentVersion (str "v1.9.10") :=
    (panelOffers_iff rfl _ _).2 (by decide)
  have hportal : ¬ PortalOffers currentVersion (str "v1.9.10") := by
    unfold PortalOffers
    decide +kernel
  exact ⟨hpanel, hportal, fun h => hportal (h.agree.1 hpanel)⟩

end Panel

end HaPanel
