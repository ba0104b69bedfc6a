import HaPanel.Text.Bytes
import Mathlib.Data.List.Lex
import Mathlib.Data.List.Sort

/-!
# Texts with placeholders

A text may have placeholders: a name between braces, of letters, digits and underlines.  `pieces`
finds them as a global replacement with a regular expression does, from left to right, and
`interpolate` puts values in their place.

* `interpolate_of_covers` : when there is a value for every placeholder, `interpolate` fills all.
* `signature_eq_iff` : two texts have the same signature, the sorted and joined names of their
  placeholders, exactly if their placeholders are the same up to order.
-/

namespace HaPanel

namespace Text

/-! ### Finding placeholders -/

def isNameByte (c : UInt8) : Bool := isAlnum c || c == byte '_'

/-- A byte of a text, or a placeholder. -/
inductive Piece where
  | byte (b : UInt8)
  | hole (name : Bytes)
deriving DecidableEq

/-- The placeholder at the beginning, and the rest. -/
def matchHole : Bytes → Option (Bytes × Bytes)
  | [] => none
  | c :: t =>
    if c = byte '\x7b' then
      match t.dropWhile isNameByte with
      | d :: rest =>
        if t.takeWhile isNameByte ≠ [] ∧ d = byte '}' then some (t.takeWhile isNameByte, rest)
        else none
      | [] => none
    else none

/-- The pieces of a text of at most `fuel` bytes. -/
def piecesWithin : ℕ → Bytes → List Piece
  | 0, _ => []
  | _ + 1, [] => []
  | fuel + 1, c :: t =>
    match matchHole (c :: t) with
    | some (name, rest) => .hole name :: piecesWithin fuel rest
    | none => .byte c :: piecesWithin fuel t

def pieces (t : Bytes) : List Piece := piecesWithin t.length t

/-- The text of a placeholder. -/
def holeText (name : Bytes) : Bytes := byte '\x7b' :: name ++ [byte '}']

def Piece.text : Piece → Bytes
  | .byte b => [b]
  | .hole name => holeText name

def Piece.name : Piece → Option Bytes
  | .byte _ => none
  | .hole name => some name

def placeholders (t : Bytes) : List Bytes := (pieces t).filterMap Piece.name

/-! ### Putting in values -/

/-- A placeholder without a value stays. -/
def Piece.fill (values : Bytes → Option Bytes) : Piece → Bytes
  | .byte b => [b]
  | .hole name => (values name).getD (holeText name)

def interpolate (t : Bytes) (values : Bytes → Option Bytes) : Bytes :=
  (pieces t).flatMap (Piece.fill values)

theorem matchHole_eq_some {t name rest : Bytes} (h : matchHole t = some (name, rest)) :
    t = holeText name ++ rest ∧ name ≠ [] ∧ ∀ c ∈ name, isNameByte c = true := by
  cases t with
  | nil => cases h
  | cons c t =>
    rw [matchHole] at h
    split_ifs at h with hc
    split at h
    · rename_i d rest' hdrop
      split_ifs at h with hd
      obtain ⟨rfl, rfl⟩ := Prod.mk.inj (Option.some.inj h)
      have hsplit : t.takeWhile isNameByte ++ d :: rest' = t := by
        rw [← hdrop, List.takeWhile_append_dropWhile]
      refine ⟨?_, hd.1, fun c hc => List.mem_takeWhile_imp hc⟩
      rw [hc, holeText, List.cons_append, List.cons_append, List.append_assoc,
        List.singleton_append, ← hd.2, hsplit]
    · cases h

/-- The pieces of a text are the text. -/
theorem flatMap_pieces (t : Bytes) : (pieces t).flatMap Piece.text = t := by
  suffices h : ∀ fuel t, t.length ≤ fuel → (piecesWithin fuel t).flatMap Piece.text = t from
    h t.length t le_rfl
  intro fuel
  induction fuel with
  | zero =>
    intro t ht
    rw [List.length_eq_zero_iff.mp (Nat.le_zero.mp ht)]
    rfl
  | succ fuel ih =>
    intro t ht
    cases t with
    | nil => rfl
    | cons c t =>
      rw [piecesWithin]
      cases hmatch : matchHole (c :: t) with
      | none =>
        have hrest := ih t (Nat.le_of_succ_le_succ ht)
        simp only [List.flatMap_cons, hrest, Piece.text, List.singleton_append]
      | some p =>
        obtain ⟨name, rest⟩ := p
        have htext := (matchHole_eq_some hmatch).1
        have hlen : rest.length ≤ fuel := by
          have := congrArg List.length htext
          simp only [List.length_append, List.length_cons, holeText] at this ht
          omega
        simp only [List.flatMap_cons, ih rest hlen, Piece.text, htext]

theorem mem_placeholders {t name : Bytes} : name ∈ placeholders t ↔ .hole name ∈ pieces t := by
  unfold placeholders
  rw [List.mem_filterMap]
  constructor
  · rintro ⟨p, hp, hname⟩
    cases p with
    | byte b => cases hname
    | hole n =>
      obtain rfl : n = name := Option.some.inj hname
      exact hp
  · exact fun h => ⟨_, h, rfl⟩

theorem isName_of_mem_placeholders {t name : Bytes} (h : name ∈ placeholders t) :
    name ≠ [] ∧ ∀ c ∈ name, isNameByte c = true := by
  rw [mem_placeholders] at h
  suffices hall : ∀ fuel t, .hole name ∈ piecesWithin fuel t →
      name ≠ [] ∧ ∀ c ∈ name, isNameByte c = true from hall _ t h
  intro fuel
  induction fuel with
  | zero => simp [piecesWithin]
  | succ fuel ih =>
    intro t ht
    cases t with
    | nil => simp [piecesWithin] at ht
    | cons c t =>
      rw [piecesWithin] at ht
      cases hmatch : matchHole (c :: t) with
      | none =>
        simp only [hmatch, List.mem_cons, reduceCtorEq, false_or] at ht
        exact ih t ht
      | some p =>
        obtain ⟨n, rest⟩ := p
        simp only [hmatch, List.mem_cons, Piece.hole.injEq] at ht
        obtain rfl | ht := ht
        · exact (matchHole_eq_some hmatch).2
        · exact ih rest ht

/-- A text with all its placeholders filled. -/
def filled (t : Bytes) (value : Bytes → Bytes) : Bytes :=
  interpolate t fun name => some (value name)

theorem interpolate_congr {t : Bytes} {values values' : Bytes → Option Bytes}
    (h : ∀ name ∈ placeholders t, values name = values' name) :
    interpolate t values = interpolate t values' := by
  refine List.flatMap_congr fun p hp => ?_
  cases p with
  | byte b => rfl
  | hole name => rw [Piece.fill, Piece.fill, h name (mem_placeholders.mpr hp)]

/-- **All placeholders are filled** when there is a value for each. -/
theorem interpolate_of_covers {t : Bytes} {values : Bytes → Option Bytes} {value : Bytes → Bytes}
    (h : ∀ name ∈ placeholders t, values name = some (value name)) :
    interpolate t values = filled t value :=
  interpolate_congr h

theorem interpolate_none (t : Bytes) : interpolate t (fun _ => none) = t := by
  refine Eq.trans (List.flatMap_congr fun p _ => ?_) (flatMap_pieces t)
  cases p <;> rfl

/-! ### The same placeholders -/

/-- The order of the names: the numbers of their bytes, from the left. -/
def NameLE (a b : Bytes) : Prop := a.map UInt8.toNat ≤ b.map UInt8.toNat

instance : DecidableRel NameLE := fun a b =>
  inferInstanceAs (Decidable (a.map UInt8.toNat ≤ b.map UInt8.toNat))

instance : Std.Total NameLE := ⟨fun a b => le_total (a.map UInt8.toNat) (b.map UInt8.toNat)⟩

instance : IsTrans Bytes NameLE :=
  ⟨fun a _ c h h' => le_trans (a := a.map UInt8.toNat) (c := c.map UInt8.toNat) h h'⟩

theorem nameLE_antisymm {a b : Bytes} (h : NameLE a b) (h' : NameLE b a) : a = b :=
  List.map_injective_iff.mpr (fun _ _ => UInt8.toNat_inj.mp)
    (le_antisymm (a := a.map UInt8.toNat) h h')

instance : Std.Antisymm NameLE := ⟨fun _ _ => nameLE_antisymm⟩

def sortNames (names : List Bytes) : List Bytes := names.insertionSort NameLE

theorem sortNames_eq_iff {names names' : List Bytes} :
    sortNames names = sortNames names' ↔ names.Perm names' := by
  have hperm (l : List Bytes) : (sortNames l).Perm l := List.perm_insertionSort NameLE l
  constructor
  · intro h
    exact (hperm names).symm.trans (h ▸ hperm names')
  · intro h
    exact List.Perm.eq_of_pairwise' (List.pairwise_insertionSort NameLE names)
      (List.pairwise_insertionSort NameLE names')
      ((hperm names).trans (h.trans (hperm names').symm))

/-- The sorted names of the placeholders, with commas between them. -/
def signature (t : Bytes) : Bytes := [byte ','].intercalate (sortNames (placeholders t))

/-- Names that can be told apart when they are joined with `q`. -/
def Joinable (q : UInt8) (names : List Bytes) : Prop := ∀ name ∈ names, name ≠ [] ∧ q ∉ name

section

variable {q : UInt8} {l l' : List Bytes}

theorem Joinable.splitOn (h : Joinable q l) (hne : l ≠ []) : ([q].intercalate l).splitOn q = l :=
  List.splitOn_intercalate q (fun s hs => (h s hs).2) hne

theorem Joinable.intercalate_eq_nil (h : Joinable q l) : [q].intercalate l = [] ↔ l = [] := by
  refine ⟨fun heq => ?_, fun heq => by rw [heq, List.intercalate_nil]⟩
  by_contra hne
  have hlist := h.splitOn hne
  rw [heq] at hlist
  have hmem : ([] : Bytes) ∈ l := by
    rw [← hlist]
    exact List.mem_singleton.mpr rfl
  exact (h [] hmem).1 rfl

theorem Joinable.intercalate_inj (h : Joinable q l) (h' : Joinable q l') :
    [q].intercalate l = [q].intercalate l' ↔ l = l' := by
  refine ⟨fun heq => ?_, fun heq => by rw [heq]⟩
  by_cases hl : l = []
  · rw [hl, List.intercalate_nil] at heq
    rw [hl, h'.intercalate_eq_nil.mp heq.symm]
  · have hl' : l' ≠ [] := by
      rintro rfl
      rw [List.intercalate_nil] at heq
      exact hl (h.intercalate_eq_nil.mp heq)
    rw [← h.splitOn hl, heq, h'.splitOn hl']

theorem intercalate_concat (hne : l ≠ []) (name : Bytes) :
    [q].intercalate (l ++ [name]) = [q].intercalate l ++ q :: name := by
  induction l with
  | nil => exact absurd rfl hne
  | cons a l ih =>
    cases l with
    | nil => simp [List.intercalate_cons_cons]
    | cons b l =>
      have hrest := ih (List.cons_ne_nil b l)
      rw [List.cons_append] at hrest
      rw [List.cons_append, List.cons_append, List.intercalate_cons_cons, hrest,
        List.intercalate_cons_cons]
      simp only [List.append_assoc]

end

/-- **The signatures agree** exactly if the placeholders are the same up to order. -/
theorem signature_eq_iff {t t' : Bytes} :
    signature t = signature t' ↔ (placeholders t).Perm (placeholders t') := by
  have hnames (t : Bytes) : Joinable (byte ',') (sortNames (placeholders t)) := by
    intro s hs
    obtain ⟨hne, hbytes⟩ :=
      isName_of_mem_placeholders ((List.mem_insertionSort NameLE).mp hs)
    exact ⟨hne, fun hc => absurd (hbytes _ hc) (by decide)⟩
  rw [signature, signature, (hnames t).intercalate_inj (hnames t'), sortNames_eq_iff]

end Text

end HaPanel
