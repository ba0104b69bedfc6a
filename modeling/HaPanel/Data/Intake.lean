import HaPanel.Data.Transfer

/-!
# Data taken in parts

A call that reads may deliver less than it was asked for, and the reader has to call again for the
rest.  A `Source` is a stream together with how the calls that read from it end; `Source.read` is the
loop that reads a number of elements.

A decoder is built from such loops.  It is a refinement of a decoder that has the whole stream before
it: what it gets is what the other one gets (`Sound`), and it gets it if the calls are patient
(`Complete`).  Both are shown step by step (`Sound.bind`, `Complete.bind`).  A decoder that has read
something reads the same when more is to come (`Stable`), so what a loop of decoding steps has got
from the beginning of a stream is a prefix of what it gets from the whole (`gather_prefix`).
-/

namespace HaPanel

namespace Transfer

variable {α β γ σ : Type*}

/-! ### Sources -/

/-- A stream, and how the calls that read from it end. -/
structure Source (α : Type*) where
  results : List Result
  stream : List α

/-- The loop that reads `size` elements.  Without `retries` a call that delivers nothing ends it. -/
def readAll (retries : Bool) : List Result → ℕ → List α → Option (List α × Source α)
  | results, 0, stream => some ([], ⟨results, stream⟩)
  | [], _ + 1, _ => none
  | .want :: results, size + 1, stream =>
    if retries then readAll retries results (size + 1) stream else none
  | .error :: _, _ + 1, _ => none
  | .count n :: results, size + 1, stream =>
    let part := stream.take (min (n + 1) (size + 1))
    -- a call that returns 0 has met the end of the stream
    if part.isEmpty then none
    else
      (readAll retries results (size + 1 - part.length) (stream.drop part.length)).map fun r =>
        (part ++ r.1, r.2)

def Source.read (retries : Bool) (size : ℕ) (s : Source α) : Option (List α × Source α) :=
  readAll retries s.results size s.stream

/-- The elements that the same reads get when they have the stream before them. -/
def readWhole (size : ℕ) (stream : List α) : Option (List α × List α) :=
  if stream.length < size then none else some (stream.take size, stream.drop size)

def Result.isCount : Result → Bool
  | count _ => true
  | want => false
  | error => false

/-- No call fails, and there are enough calls for the stream whatever each of them delivers. -/
structure Source.Patient (retries : Bool) (s : Source α) : Prop where
  ne_error : .error ∉ s.results
  retries_of_want : .want ∈ s.results → retries = true
  enough : s.stream.length ≤ s.results.countP Result.isCount

/-! ### Decoders -/

/-- What is got from the calls is what is got from the stream. -/
def Sound (x : Option (β × Source α)) (y : Option (β × List α)) : Prop :=
  ∀ b s, x = some (b, s) → y = some (b, s.stream)

/-- What is got from the stream is got from the calls, and they stay patient. -/
def Complete (retries : Bool) (x : Option (β × Source α)) (y : Option (β × List α)) : Prop :=
  ∀ b rest, y = some (b, rest) → ∃ s, x = some (b, s) ∧ s.stream = rest ∧ s.Patient retries

/-- What has been read stays the same when more is to come. -/
def Stable (x : List α → Option (β × List α)) : Prop :=
  ∀ stream b rest more, x stream = some (b, rest) → x (stream ++ more) = some (b, rest ++ more)

/-- What `k` rounds of a loop get that ends with the first failure. -/
def gather (next : σ → Option (β × σ)) : ℕ → σ → List β
  | 0, _ => []
  | k + 1, s =>
    match next s with
    | none => []
    | some (b, s) => b :: gather next k s

/-! ### Reading a number of elements -/

/-- What was read was at the beginning of the stream, and the rest is left. -/
theorem stream_of_readAll {retries : Bool} {results : List Result} {size : ℕ} {stream bs : List α}
    {s : Source α} (h : readAll retries results size stream = some (bs, s)) :
    bs.length = size ∧ stream = bs ++ s.stream := by
  induction results generalizing size stream bs with
  | nil =>
    cases size with
    | zero =>
      obtain ⟨rfl, rfl⟩ := Prod.mk.inj (Option.some.inj h)
      exact ⟨rfl, rfl⟩
    | succ size => cases h
  | cons result results ih =>
    cases size with
    | zero =>
      obtain ⟨rfl, rfl⟩ := Prod.mk.inj (Option.some.inj h)
      exact ⟨rfl, rfl⟩
    | succ size =>
      cases result with
      | want =>
        rw [readAll] at h
        split_ifs at h
        exact ih h
      | error => cases h
      | count n =>
        simp only [readAll] at h
        split_ifs at h
        obtain ⟨⟨rest, t⟩, hread, heq⟩ := Option.map_eq_some_iff.mp h
        obtain ⟨rfl, rfl⟩ := Prod.mk.inj heq
        obtain ⟨hlen, hstream⟩ := ih hread
        have hpart := List.prefix_iff_eq_append.mp
          (List.take_prefix (min (n + 1) (size + 1)) stream)
        have hle : (stream.take (min (n + 1) (size + 1))).length ≤ size + 1 := by
          rw [List.length_take]
          omega
        refine ⟨?_, ?_⟩
        · rw [List.length_append, hlen]
          omega
        · rw [List.append_assoc, ← hstream, hpart]

theorem sound_read (retries : Bool) (size : ℕ) (s : Source α) :
    Sound (s.read retries size) (readWhole size s.stream) := by
  intro bs t h
  obtain ⟨hlen, hstream⟩ := stream_of_readAll h
  rw [readWhole, hstream, ← hlen]
  simp

/-- Patient calls deliver everything there is. -/
theorem readAll_of_patient {retries : Bool} {results : List Result} {size : ℕ} {stream : List α}
    (h : (Source.mk results stream).Patient retries) (hsize : size ≤ stream.length) :
    ∃ s, readAll retries results size stream = some (stream.take size, s) ∧ s.Patient retries := by
  induction results generalizing size stream with
  | nil =>
    have hnil : stream = [] := List.eq_nil_of_length_eq_zero (Nat.le_zero.mp h.enough)
    obtain rfl : size = 0 := by rw [hnil, List.length_nil] at hsize; omega
    exact ⟨⟨[], stream⟩, by simp [readAll], h⟩
  | cons result results ih =>
    have hresults : .error ∉ results := fun hmem => h.ne_error (List.mem_cons_of_mem _ hmem)
    have hwants : .want ∈ results → retries = true := fun hmem =>
      h.retries_of_want (List.mem_cons_of_mem _ hmem)
    cases size with
    | zero => exact ⟨⟨result :: results, stream⟩, by simp [readAll], h⟩
    | succ size =>
      cases result with
      | want =>
        have hretries := h.retries_of_want List.mem_cons_self
        have henough : stream.length ≤ results.countP Result.isCount := h.enough
        obtain ⟨s, hs, hpatient⟩ := ih ⟨hresults, hwants, henough⟩ hsize
        exact ⟨s, by rw [readAll, if_pos hretries, hs], hpatient⟩
      | error => exact absurd List.mem_cons_self h.ne_error
      | count n =>
        have henough : stream.length ≤ results.countP Result.isCount + 1 :=
          Nat.le_trans h.enough (Nat.le_of_eq (List.countP_cons_of_pos rfl))
        have hpart : (stream.take (min (n + 1) (size + 1))).length = min (n + 1) (size + 1) := by
          rw [List.length_take]
          omega
        have hne : (stream.take (min (n + 1) (size + 1))).isEmpty = false := by
          rw [List.isEmpty_eq_false_iff, ← List.length_pos_iff, hpart]
          omega
        have hrest : (Source.mk results (stream.drop (min (n + 1) (size + 1)))).Patient retries :=
          ⟨hresults, hwants, by simp only [List.length_drop]; omega⟩
        have hleft : size + 1 - min (n + 1) (size + 1) ≤
            (stream.drop (min (n + 1) (size + 1))).length := by
          rw [List.length_drop]
          omega
        obtain ⟨s, hs, hpatient⟩ := ih hrest hleft
        refine ⟨s, ?_, hpatient⟩
        simp only [readAll, hne, Bool.false_eq_true, if_false, hpart, hs, Option.map_some]
        rw [← List.take_add, Nat.add_sub_cancel' (Nat.min_le_right _ _)]

theorem complete_read {retries : Bool} (size : ℕ) {s : Source α} (h : s.Patient retries) :
    Complete retries (s.read retries size) (readWhole size s.stream) := by
  intro bs rest hwhole
  unfold readWhole at hwhole
  split_ifs at hwhole with hlt
  obtain ⟨rfl, rfl⟩ := Prod.mk.inj (Option.some.inj hwhole)
  obtain ⟨t, hread, hpatient⟩ := readAll_of_patient h (Nat.le_of_not_lt hlt)
  obtain ⟨hlen, hstream⟩ := stream_of_readAll hread
  refine ⟨t, hread, ?_, hpatient⟩
  exact List.append_cancel_left (hstream.symm.trans (List.take_append_drop size s.stream).symm)

theorem stable_readWhole (size : ℕ) : Stable (readWhole (α := α) size) := by
  intro stream bs rest more h
  unfold readWhole at h ⊢
  split_ifs at h with hlt
  obtain ⟨rfl, rfl⟩ := Prod.mk.inj (Option.some.inj h)
  have hle := Nat.le_of_not_lt hlt
  rw [if_neg (by rw [List.length_append]; omega), List.take_append_of_le_length hle,
    List.drop_append_of_le_length hle]

/-! ### Putting steps together -/

section

variable {x : Option (β × Source α)} {y : Option (β × List α)}

theorem Sound.bind {f : β × Source α → Option (γ × Source α)}
    {g : β × List α → Option (γ × List α)} (h : Sound x y)
    (hf : ∀ b s, Sound (f (b, s)) (g (b, s.stream))) : Sound (x.bind f) (y.bind g) := by
  intro c t hbind
  obtain ⟨⟨b, s⟩, hx, hc⟩ := Option.bind_eq_some_iff.mp hbind
  rw [h b s hx]
  exact hf b s c t hc

theorem Sound.none : Sound none y := by
  rintro b s ⟨⟩

theorem Sound.some (b : β) (s : Source α) : Sound (some (b, s)) (some (b, s.stream)) := by
  rintro c t h
  obtain ⟨rfl, rfl⟩ := Prod.mk.inj (Option.some.inj h)
  rfl

theorem Complete.bind {retries : Bool} {f : β × Source α → Option (γ × Source α)}
    {g : β × List α → Option (γ × List α)} (h : Complete retries x y)
    (hf : ∀ b s, s.Patient retries → Complete retries (f (b, s)) (g (b, s.stream))) :
    Complete retries (x.bind f) (y.bind g) := by
  intro c rest hbind
  obtain ⟨⟨b, stream⟩, hy, hc⟩ := Option.bind_eq_some_iff.mp hbind
  obtain ⟨s, hx, rfl, hpatient⟩ := h b stream hy
  obtain ⟨t, ht, hrest⟩ := hf b s hpatient c rest hc
  exact ⟨t, by rw [hx]; exact ht, hrest⟩

theorem Complete.none {retries : Bool} : Complete retries x none := by
  rintro b rest ⟨⟩

theorem Complete.some {retries : Bool} (b : β) {s : Source α} (h : s.Patient retries) :
    Complete retries (some (b, s)) (some (b, s.stream)) := by
  rintro c rest heq
  obtain ⟨rfl, rfl⟩ := Prod.mk.inj (Option.some.inj heq)
  exact ⟨s, rfl, rfl, h⟩

end

theorem Stable.bind {x : List α → Option (β × List α)} {f : β × List α → Option (γ × List α)}
    (h : Stable x) (hf : ∀ b, Stable fun stream => f (b, stream)) :
    Stable fun stream => (x stream).bind f := by
  intro stream c rest more hbind
  obtain ⟨⟨b, mid⟩, hx, hc⟩ := Option.bind_eq_some_iff.mp hbind
  simp only [h stream b mid more hx, Option.bind_some]
  exact hf b mid c rest more hc

theorem Stable.none : Stable fun _ : List α => (none : Option (β × List α)) := by
  rintro stream b rest more ⟨⟩

theorem Stable.some (b : β) : Stable fun stream : List α => some (b, stream) := by
  intro stream c rest more h
  obtain ⟨rfl, rfl⟩ := Prod.mk.inj (Option.some.inj h)
  rfl

/-! ### Decoding again and again -/

/-- What is got in fewer rounds, or from a part of the stream, is the beginning of what is got from
the stream. -/
theorem gather_prefix {dec : List α → Option (β × List α)} (hdec : Stable dec) (k : ℕ)
    (stream more : List α) : gather dec k stream <+: gather dec k (stream ++ more) := by
  induction k generalizing stream with
  | zero => exact List.prefix_rfl
  | succ k ih =>
    cases hread : dec stream with
    | none =>
      simp only [gather, hread]
      exact List.nil_prefix
    | some r =>
      obtain ⟨b, rest⟩ := r
      simp only [gather, hread, hdec stream b rest more hread]
      exact (List.prefix_cons_inj b).mpr (ih rest)

/-- A loop of sound steps gets the beginning of what there is. -/
theorem gather_prefix_of_sound {next : Source α → Option (β × Source α)}
    {dec : List α → Option (β × List α)} (h : ∀ s, Sound (next s) (dec s.stream)) (k : ℕ)
    (s : Source α) : gather next k s <+: gather dec k s.stream := by
  induction k generalizing s with
  | zero => exact List.prefix_rfl
  | succ k ih =>
    cases hread : next s with
    | none =>
      simp only [gather, hread]
      exact List.nil_prefix
    | some r =>
      obtain ⟨b, t⟩ := r
      simp only [gather, hread, h s b t hread]
      exact (List.prefix_cons_inj b).mpr (ih t)

/-- A loop of complete steps gets all of it. -/
theorem gather_of_complete {retries : Bool} {next : Source α → Option (β × Source α)}
    {dec : List α → Option (β × List α)} (hsound : ∀ s, Sound (next s) (dec s.stream))
    (hcomplete : ∀ s, s.Patient retries → Complete retries (next s) (dec s.stream)) (k : ℕ)
    {s : Source α} (hs : s.Patient retries) : gather next k s = gather dec k s.stream := by
  induction k generalizing s with
  | zero => rfl
  | succ k ih =>
    cases hread : dec s.stream with
    | none =>
      cases hnext : next s with
      | none => simp only [gather, hread, hnext]
      | some r =>
        have hsome := hsound s r.1 r.2 hnext
        rw [hread] at hsome
        cases hsome
    | some r =>
      obtain ⟨t, hnext, hstream, hpatient⟩ := hcomplete s hs r.1 r.2 hread
      simp only [gather, hread, hnext, ← hstream]
      rw [ih hpatient]

end Transfer

end HaPanel
