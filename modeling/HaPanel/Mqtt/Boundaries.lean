import HaPanel.Mqtt.Receive

/-!
# Packet boundaries

The receive loop on a stream of well-formed packets, when every read may also time out or fail.
`Synced` relates the place in the stream to the variables of the loop.  One step leaves it: a body
read that delivers nothing ends the loop over the body but not the connection, and the next byte
that arrives is taken for a header.  `packet_boundaries_iff` says that nothing else can go wrong.
-/

namespace HaPanel

namespace Mqtt

open Text Transition

/-! ### What is to be kept -/

/-- A packet begins at this place of the stream, or the stream ends there. -/
def Boundary (ps : List Packet) (o : ℕ) : Prop := ∃ k, o = (wire (ps.take k)).length

/-- The packets handed over are the first ones of the stream, and only bytes at the beginning of a
packet have been read as headers. -/
structure InOrder (ps : List Packet) (c : Connection) : Prop where
  handed : c.handed <+: ps.map Packet.pair
  headers : ∀ o ∈ c.headerAt, Boundary ps o

/-- The read of a body delivers nothing, and the loop goes on. -/
def Abandons (c : Connection) : Event → Prop
  | .read .timeout | .read .error =>
    (∃ header remLen payload, c.position = .body header remLen payload) ∧
      c.running = true ∧ c.pingOk = true
  | _ => False

/-- As long as the connection is open, no read delivers a byte. -/
def Silent : Connection → List Event → Prop :=
  Along Connection.next fun c e => c.position = .closed ∨ ∀ n, e ≠ .read (.bytes n)

/-- Whenever the read of a body delivers nothing and the loop goes on, no later read of the
connection delivers a byte. -/
def Recovers : Connection → List Event → Prop
  | _, [] => True
  | c, e :: es => (Abandons c e → Silent (c.next e) es) ∧ Recovers (c.next e) es

/-! ### Places in the stream -/

theorem boundary_length {ps done rest : List Packet} (h : ps = done ++ rest) :
    Boundary ps (wire done).length :=
  ⟨done.length, by rw [h, List.take_left]⟩

/-- Inside a packet there is no boundary. -/
theorem not_boundary {ps done rest : List Packet} {p : Packet} {o : ℕ}
    (h : ps = done ++ p :: rest) (hlo : (wire done).length < o)
    (hhi : o < (wire done).length + p.bytes.length) : ¬ Boundary ps o := by
  rintro ⟨k, rfl⟩
  rw [h] at hlo hhi
  by_cases hk : k ≤ done.length
  · have hle : (wire ((done ++ p :: rest).take k)).length ≤ (wire done).length := by
      rw [List.take_append_of_le_length hk]
      conv_rhs => rw [← List.take_append_drop k done, wire_append, List.length_append]
      exact Nat.le_add_right _ _
    omega
  · obtain ⟨j, hj⟩ : ∃ j, k = done.length + (j + 1) := ⟨k - done.length - 1, by omega⟩
    rw [hj, List.take_length_add_append, List.take_succ_cons, wire_append, wire_cons,
      List.length_append, List.length_append] at hhi
    omega

/-- Where the loop is: `done` has been read, `rest` begins at the packet that is being read. -/
inductive At (done : List Packet) : List Packet → Position → Bytes → ℕ → Prop where
  | header {rest : List Packet} : At done rest .header (wire rest) (wire done).length
  | length {p : Packet} {rest : List Packet} {pre post : Bytes} {v : ℕ}
      (hfield : p.lengthField = pre ++ post) (hpost : IsVarint post)
      (hv : v + 128 ^ pre.length * ofVarint post = p.body.length) :
      At done (p :: rest) (.length p.header (128 ^ pre.length) v) (post ++ (p.body ++ wire rest))
        ((wire done).length + 1 + pre.length)
  | body {p : Packet} {rest : List Packet} {pre post : Bytes}
      (hbody : p.body = pre ++ post) (hpost : post ≠ []) :
      At done (p :: rest) (.body p.header p.body.length pre) (post ++ wire rest)
        ((wire done).length + 1 + p.lengthField.length + pre.length)
  | closed {rest : List Packet} {inbound : Bytes} {offset : ℕ} : At done rest .closed inbound offset

/-- The loop reads what the sender meant. -/
def Synced (ps : List Packet) (c : Connection) : Prop :=
  ∃ done rest, ps = done ++ rest ∧ c.handed = done.map Packet.pair ∧
    (∀ o ∈ c.headerAt, Boundary ps o) ∧ At done rest c.position c.inbound c.offset

theorem Synced.inOrder {ps : List Packet} {c : Connection} (h : Synced ps c) : InOrder ps c := by
  obtain ⟨done, rest, rfl, hhanded, hheaders, -⟩ := h
  refine ⟨?_, hheaders⟩
  rw [hhanded, List.map_append]
  exact List.prefix_append _ _

/-! ### Steps that stay in step -/

section

variable {ps done rest : List Packet} {c : Connection}

theorem Synced.close (h : Synced ps c) : Synced ps c.close := by
  obtain ⟨done, rest, hps, hhanded, hheaders, -⟩ := h
  exact ⟨done, rest, hps, hhanded, hheaders, .closed⟩

theorem synced_endIteration (hps : ps = done ++ rest) (hhanded : c.handed = done.map Packet.pair)
    (hheaders : ∀ o ∈ c.headerAt, Boundary ps o)
    (hin : c.pingOk = true ∧ c.running = true →
      c.inbound = wire rest ∧ c.offset = (wire done).length) :
    Synced ps c.endIteration := by
  refine ⟨done, rest, hps, hhanded, hheaders, ?_⟩
  unfold Connection.endIteration
  split_ifs with h
  · obtain ⟨hin, hoff⟩ := hin h
    simp only [hin, hoff]
    exact .header
  · exact .closed

/-- The loop over the body, entered with the part `pre` of it. -/
theorem synced_bodyLoop {p : Packet} {pre post : Bytes} (hps : ps = done ++ p :: rest)
    (hhanded : c.handed = done.map Packet.pair) (hheaders : ∀ o ∈ c.headerAt, Boundary ps o)
    (hbody : p.body = pre ++ post) (hin : c.inbound = post ++ wire rest)
    (hoff : c.offset = (wire done).length + 1 + p.lengthField.length + pre.length) :
    Synced ps (c.bodyLoop p.header p.body.length pre) := by
  have hlen : p.body.length = pre.length + post.length := by rw [hbody, List.length_append]
  unfold Connection.bodyLoop
  split_ifs with hmore hdone
  · refine ⟨done, p :: rest, hps, hhanded, hheaders, ?_⟩
    simp only [hin, hoff]
    refine .body hbody fun h => ?_
    rw [h, List.length_nil] at hlen
    omega
  · -- the body is complete: the packet moves to those that are done
    have hpost : post = [] := List.eq_nil_of_length_eq_zero (by omega)
    have hpre : pre = p.body := by rw [hbody, hpost, List.append_nil]
    have hps' : ps = (done ++ [p]) ++ rest := by rw [hps]; simp
    refine synced_endIteration hps' ?_ hheaders
      fun _ => ⟨by rw [hin, hpost, List.nil_append], ?_⟩
    · simp only [hhanded, hpre, List.map_append, List.map_cons, List.map_nil, Packet.pair]
    · have hbytes := p.length_bytes
      simp only [hoff, wire_append, wire_cons, wire_nil, List.append_nil, List.length_append]
      omega
  · refine synced_endIteration hps hhanded hheaders fun h => ?_
    exact absurd ⟨by omega, h.2⟩ hmore

/-- The read of a header byte. -/
theorem Synced.onRead_header (h : Synced ps c) (hpos : c.position = .header) (r : Read) :
    Synced ps (c.onRead r) := by
  have hs := h
  obtain ⟨done, rest, hps, hhanded, hheaders, hat⟩ := h
  rw [hpos] at hat
  obtain ⟨hin, hoff⟩ : c.inbound = wire rest ∧ c.offset = (wire done).length := by
    generalize c.inbound = inbound at hat
    generalize c.offset = offset at hat
    cases hat
    exact ⟨rfl, rfl⟩
  cases r with
  | error =>
    simp only [Connection.onRead, hpos, readRaw]
    exact hs.close
  | timeout =>
    simp only [Connection.onRead, hpos, readRaw]
    exact synced_endIteration hps hhanded hheaders fun _ => ⟨hin, hoff⟩
  | bytes n =>
    cases rest with
    | nil =>
      rw [wire_nil] at hin
      simp only [Connection.onRead, hpos, hin, readRaw_nil]
      exact synced_endIteration hps hhanded hheaders fun _ => ⟨hin, hoff⟩
    | cons p rest =>
      rw [wire_cons, Packet.bytes, List.cons_append] at hin
      rw [Mqtt.onRead_header hpos hin]
      refine ⟨done, p :: rest, hps, hhanded, ?_, ?_⟩
      · intro o ho
        rcases List.mem_append.1 ho with ho | ho
        · exact hheaders o ho
        · rw [List.mem_singleton.1 ho, hoff]
          exact boundary_length hps
      · simp only [hoff, List.append_assoc]
        refine At.length (List.nil_append _).symm p.isVarint ?_
        rw [List.length_nil, pow_zero, Nat.one_mul, Nat.zero_add, p.length_eq]

/-- The last byte of the length field: the length is known, and the loop over the body begins. -/
theorem synced_lengthByte_last {p : Packet} {pre : Bytes} {v : ℕ} {b : UInt8}
    (hps : ps = done ++ p :: rest) (hhanded : c.handed = done.map Packet.pair)
    (hheaders : ∀ o ∈ c.headerAt, Boundary ps o) (hfield : p.lengthField = pre ++ [b])
    (hv : v + 128 ^ pre.length * ofVarint [b] = p.body.length) (hb : b.toNat < 128)
    (hin : c.inbound = p.body ++ wire rest)
    (hoff : c.offset = (wire done).length + 1 + pre.length + 1) :
    Synced ps (c.lengthByte p.header (128 ^ pre.length) v b) := by
  have hstop : ¬ b &&& 128 ≠ 0 := not_not.mpr ((and_continuation b).mpr hb)
  have hvalue : v + (b &&& 127).toNat * 128 ^ pre.length = p.body.length := by
    rw [← hv, and_group, ofVarint, ofVarint, Nat.mul_zero, Nat.add_zero, Nat.mul_comm]
  unfold Connection.lengthByte
  simp only [hstop, if_false, hvalue]
  split_ifs
  · exact ⟨done, p :: rest, hps, hhanded, hheaders, .closed⟩
  · refine synced_bodyLoop hps hhanded hheaders (List.nil_append p.body).symm hin ?_
    rw [hoff, hfield, List.length_append, List.length_singleton, List.length_nil]
    omega

/-- A byte of the length field with more behind it. -/
theorem synced_lengthByte_more {p : Packet} {pre bs : Bytes} {v : ℕ} {b : UInt8}
    (hps : ps = done ++ p :: rest) (hhanded : c.handed = done.map Packet.pair)
    (hheaders : ∀ o ∈ c.headerAt, Boundary ps o) (hfield : p.lengthField = pre ++ b :: bs)
    (hv : v + 128 ^ pre.length * ofVarint (b :: bs) = p.body.length) (hb : 128 ≤ b.toNat)
    (hbs : IsVarint bs) (hin : c.inbound = bs ++ (p.body ++ wire rest))
    (hoff : c.offset = (wire done).length + 1 + pre.length + 1) :
    Synced ps (c.lengthByte p.header (128 ^ pre.length) v b) := by
  have hmore : b &&& 128 ≠ 0 := fun h => absurd ((and_continuation b).mp h) (by omega)
  have hpow : 128 ^ pre.length * 128 = 128 ^ (pre ++ [b]).length := by
    rw [List.length_append, List.length_singleton, pow_succ]
  have hoff' : c.offset = (wire done).length + 1 + (pre ++ [b]).length := by
    rw [hoff, List.length_append, List.length_singleton]
    omega
  unfold Connection.lengthByte
  simp only [hmore, if_true, ne_eq, not_false_eq_true]
  split_ifs
  · exact ⟨done, p :: rest, hps, hhanded, hheaders, .closed⟩
  · refine ⟨done, p :: rest, hps, hhanded, hheaders, ?_⟩
    simp only [hpow, hoff', hin]
    refine At.length (by rw [hfield]; simp) hbs ?_
    rw [← hv, and_group, ofVarint, ← hpow]
    ring

/-- The read of a byte of the length field. -/
theorem Synced.onRead_length (h : Synced ps c) {header : UInt8} {m v : ℕ}
    (hpos : c.position = .length header m v) (r : Read) : Synced ps (c.onRead r) := by
  have hs := h
  obtain ⟨done, rest, hps, hhanded, hheaders, hat⟩ := h
  rw [hpos] at hat
  generalize hin : c.inbound = inbound at hat
  generalize hoff : c.offset = offset at hat
  cases hat with
  | @length p rest pre post v hfield hpost hv =>
    cases r with
    | error =>
      simp only [Connection.onRead, hpos, readRaw]
      exact hs.close
    | timeout =>
      simp only [Connection.onRead, hpos, readRaw]
      exact hs.close
    | bytes n =>
      have hoff' : c.offset + 1 = (wire done).length + 1 + pre.length + 1 := by rw [hoff]
      cases hpost with
      | @last b hb =>
        rw [Mqtt.onRead_length hpos hin]
        exact synced_lengthByte_last hps hhanded hheaders hfield hv hb rfl hoff'
      | @more b bs hb hbs =>
        rw [Mqtt.onRead_length hpos hin]
        exact synced_lengthByte_more hps hhanded hheaders hfield hv hb hbs rfl hoff'

/-- A read of the body that delivers something. -/
theorem Synced.onRead_body (h : Synced ps c) {header : UInt8} {remLen : ℕ} {payload : Bytes}
    (hpos : c.position = .body header remLen payload) (n : ℕ) :
    Synced ps (c.onRead (.bytes n)) := by
  obtain ⟨done, rest, hps, hhanded, hheaders, hat⟩ := h
  rw [hpos] at hat
  generalize hin : c.inbound = inbound at hat
  generalize hoff : c.offset = offset at hat
  cases hat with
  | @body p rest _ post hbody hpost =>
    obtain ⟨b, bs, rfl⟩ := List.exists_cons_of_ne_nil hpost
    have hreq : p.body.length - payload.length = (b :: bs).length := by
      rw [hbody, List.length_append, Nat.add_sub_cancel_left]
    have hread : readRaw (.bytes n) (p.body.length - payload.length) (b :: bs ++ wire rest) =
        some (b :: bs.take n) := by
      rw [readRaw, hreq, ← List.take_take, List.take_left, List.take_succ_cons]
    simp only [Connection.onRead, hpos, hin, hread]
    have hbody' : p.body = (payload ++ b :: bs.take n) ++ bs.drop n := by
      rw [List.append_assoc, List.cons_append, List.take_append_drop, hbody]
    refine synced_bodyLoop hps hhanded hheaders hbody' ?_ ?_
    · have hsplit : b :: bs ++ wire rest = (b :: bs.take n) ++ (bs.drop n ++ wire rest) := by
        rw [List.cons_append, List.cons_append, ← List.append_assoc, List.take_append_drop]
      simp only [Connection.take, hin]
      rw [hsplit, List.drop_left]
    · simp only [Connection.take, hoff, List.length_append]
      omega

/-- **Every other step stays in step.** -/
theorem Synced.next (h : Synced ps c) {e : Event} (he : ¬ Abandons c e) : Synced ps (c.next e) := by
  cases e with
  | stop => exact h
  | pingFails => exact h
  | read r =>
    simp only [Connection.next]
    cases hpos : c.position with
    | header => exact h.onRead_header hpos r
    | length header m v => exact h.onRead_length hpos r
    | closed =>
      have hsame : c.onRead r = c := by simp only [Connection.onRead, hpos]
      rwa [hsame]
    | body header remLen payload =>
      have hgone : r = .timeout ∨ r = .error → Synced ps (c.onRead r) := by
        intro hr
        have hend : c.onRead r = c.endIteration := by
          rcases hr with rfl | rfl <;> simp only [Connection.onRead, hpos, readRaw]
        obtain ⟨done, rest, hps, hhanded, hheaders, -⟩ := h
        rw [hend]
        refine synced_endIteration hps hhanded hheaders fun hgo => absurd ?_ he
        rcases hr with rfl | rfl <;> exact ⟨⟨header, remLen, payload, hpos⟩, hgo.2, hgo.1⟩
      cases r with
      | bytes n => exact h.onRead_body hpos n
      | timeout => exact hgone (.inl rfl)
      | error => exact hgone (.inr rfl)

end

/-! ### Out of step -/

/-- The loop is about to read a header byte inside a packet, or has been left. -/
structure Stranded (ps : List Packet) (c : Connection) : Prop where
  position : c.position = .header ∨ c.position = .closed
  inOrder : InOrder ps c
  inside : ¬ Boundary ps c.offset
  more : c.inbound ≠ []

theorem headerAt_bodyLoop (c : Connection) (header : UInt8) (remLen : ℕ) (payload : Bytes) :
    (c.bodyLoop header remLen payload).headerAt = c.headerAt := by
  unfold Connection.bodyLoop
  split_ifs <;> rfl

theorem headerAt_lengthByte (c : Connection) (header : UInt8) (m v : ℕ) (b : UInt8) :
    (c.lengthByte header m v b).headerAt = c.headerAt := by
  simp only [Connection.lengthByte]
  split_ifs
  · rfl
  · rfl
  · exact headerAt_bodyLoop ..

theorem headerAt_next (c : Connection) (e : Event) : c.headerAt <+: (c.next e).headerAt := by
  cases e with
  | stop => exact List.prefix_rfl
  | pingFails => exact List.prefix_rfl
  | read r =>
    simp only [Connection.next]
    unfold Connection.onRead
    split
    · split
      · exact List.prefix_rfl
      · exact List.prefix_rfl
      · exact List.prefix_append _ _
    · split
      · exact List.prefix_rfl
      · exact List.prefix_rfl
      · rw [headerAt_lengthByte]
        exact List.prefix_rfl
    · split
      · exact List.prefix_rfl
      · exact List.prefix_rfl
      · rw [headerAt_bodyLoop]
        exact List.prefix_rfl
    · exact List.prefix_rfl

theorem headerAt_run (c : Connection) (es : List Event) :
    c.headerAt <+: (run Connection.next c es).headerAt :=
  run_invariant (I := fun d => c.headerAt <+: d.headerAt)
    (fun d e h => h.trans (headerAt_next d e)) List.prefix_rfl es

section

variable {ps : List Packet} {c : Connection}

theorem Synced.stranded (h : Synced ps c) {e : Event} (he : Abandons c e) :
    Stranded ps (c.next e) := by
  obtain ⟨r, rfl, hr, ⟨header, remLen, payload, hpos⟩, hrun, hping⟩ : ∃ r, e = .read r ∧
      (r = .timeout ∨ r = .error) ∧ (∃ header remLen payload,
        c.position = .body header remLen payload) ∧ c.running = true ∧ c.pingOk = true := by
    match e, he with
    | .read .timeout, he => exact ⟨.timeout, rfl, .inl rfl, he⟩
    | .read .error, he => exact ⟨.error, rfl, .inr rfl, he⟩
  have hnext : c.next (.read r) = { c with position := .header } := by
    have hend : c.onRead r = c.endIteration := by
      rcases hr with rfl | rfl <;> simp only [Connection.onRead, hpos, readRaw]
    simp only [Connection.next, hend, Connection.endIteration, hrun, hping, and_self, if_true]
  have horder := h.inOrder
  obtain ⟨done, rest, hps, -, -, hat⟩ := h
  rw [hpos] at hat
  generalize hin : c.inbound = inbound at hat
  generalize hoff : c.offset = offset at hat
  cases hat with
  | @body p rest _ post hbody hpost =>
    rw [hnext]
    refine ⟨.inl rfl, ⟨horder.handed, horder.headers⟩, ?_, ?_⟩
    · have hbytes := p.length_bytes
      have hlen : p.body.length = payload.length + post.length := by
        rw [hbody, List.length_append]
      have hpos := List.length_pos_of_ne_nil hpost
      simp only [hoff]
      exact not_boundary hps (by omega) (by omega)
    · simp only [hin]
      exact List.append_ne_nil_of_left_ne_nil hpost _

/-- A step without a byte keeps the loop out of step. -/
theorem Stranded.next (h : Stranded ps c) {e : Event}
    (he : c.position = .closed ∨ ∀ n, e ≠ .read (.bytes n)) : Stranded ps (c.next e) := by
  have hend : Stranded ps c.endIteration := by
    refine ⟨?_, ⟨h.inOrder.handed, h.inOrder.headers⟩, h.inside, h.more⟩
    unfold Connection.endIteration
    split_ifs
    · exact .inl rfl
    · exact .inr rfl
  cases e with
  | stop => exact ⟨h.position, ⟨h.inOrder.handed, h.inOrder.headers⟩, h.inside, h.more⟩
  | pingFails => exact ⟨h.position, ⟨h.inOrder.handed, h.inOrder.headers⟩, h.inside, h.more⟩
  | read r =>
    simp only [Connection.next]
    rcases h.position with hpos | hpos
    · have hquiet : ∀ n, r ≠ .bytes n := by
        intro n hr
        rcases he with hclosed | hne
        · rw [hpos] at hclosed
          cases hclosed
        · exact hne n (congrArg _ hr)
      cases r with
      | bytes n => exact absurd rfl (hquiet n)
      | timeout =>
        simp only [Connection.onRead, hpos, readRaw]
        exact hend
      | error =>
        simp only [Connection.onRead, hpos, readRaw]
        exact ⟨.inr rfl, ⟨h.inOrder.handed, h.inOrder.headers⟩, h.inside, h.more⟩
    · have hsame : c.onRead r = c := by simp only [Connection.onRead, hpos]
      rwa [hsame]

/-- Out of step, order is kept as long as nothing arrives. -/
theorem Stranded.inOrder_run_iff (h : Stranded ps c) (es : List Event) :
    InOrder ps (run Connection.next c es) ↔ Silent c es := by
  induction es generalizing c with
  | nil => exact ⟨fun _ => trivial, fun _ => h.inOrder⟩
  | cons e es ih =>
    by_cases he : c.position = .closed ∨ ∀ n, e ≠ .read (.bytes n)
    · rw [run_cons, ih (h.next he)]
      exact ⟨fun hs => ⟨he, hs⟩, fun hs => hs.2⟩
    · -- a byte arrives and is taken for a header
      refine ⟨fun horder => ?_, fun hs => absurd hs.1 he⟩
      rw [not_or, not_forall] at he
      obtain ⟨hopen, n, hbyte⟩ := he
      rw [not_not] at hbyte
      have hpos := h.position.resolve_right hopen
      obtain ⟨b, t, hin⟩ := List.exists_cons_of_ne_nil h.more
      have hhead : c.offset ∈ (c.next e).headerAt := by
        rw [hbyte, Connection.next, onRead_header hpos hin]
        exact List.mem_append_right _ List.mem_cons_self
      have hrun := (headerAt_run (c.next e) es).subset hhead
      exact absurd (horder.headers _ hrun) h.inside

/-- Out of step, the loop never gets to a body again without a byte. -/
theorem Stranded.recovers (h : Stranded ps c) {es : List Event} (hs : Silent c es) :
    Recovers c es := by
  induction es generalizing c with
  | nil => trivial
  | cons e es ih => exact ⟨fun _ => hs.2, ih (h.next hs.1) hs.2⟩

theorem Synced.inOrder_run_iff (h : Synced ps c) (es : List Event) :
    InOrder ps (run Connection.next c es) ↔ Recovers c es := by
  induction es generalizing c with
  | nil => exact ⟨fun _ => trivial, fun _ => h.inOrder⟩
  | cons e es ih =>
    rw [run_cons]
    by_cases he : Abandons c e
    · have hst := h.stranded he
      rw [hst.inOrder_run_iff es]
      exact ⟨fun hs => ⟨fun _ => hs, hst.recovers hs⟩, fun hr => hr.1 he⟩
    · rw [ih (h.next he)]
      exact ⟨fun hr => ⟨fun h' => absurd h' he, hr⟩, fun hr => hr.2⟩

end

/-! ### The connection -/

/-- **Packet boundaries.**  On a stream of well-formed packets, whatever the socket does and whenever
the client is stopped or a ping fails, the packets handed over are the first packets of the stream
and no byte inside a packet is read as a header, if and only if nothing arrives any more on a
connection on which the read of a body has come back empty and the loop has gone on. -/
theorem packet_boundaries_iff (ps : List Packet) (es : List Event) :
    InOrder ps (run Connection.next { inbound := wire ps } es) ↔
      Recovers { inbound := wire ps } es :=
  Synced.inOrder_run_iff
    ⟨[], ps, rfl, rfl, fun _ ho => absurd ho List.not_mem_nil, .header⟩ es

/-- A message without payload on the topic `a`. -/
def emptyMessage : Packet where
  header := 0x30
  lengthField := [3]
  body := [0, 1, byte 'a']
  isVarint := isVarint_three
  length_le := length_three_le
  length_eq := rfl

/-- Header and length of a message arrive, the first read of the body times out, and then the rest
arrives. -/
def lateBody : List Event :=
  [.read (.bytes 0), .read (.bytes 0), .read .timeout, .read (.bytes 0), .read (.bytes 0),
    .read (.bytes 0)]

/-- The late body is taken for a packet of its own. -/
theorem body_read_as_packet :
    (run Connection.next { inbound := wire [emptyMessage] } lateBody).handed =
        [(0, [byte 'a'])] ∧
      ¬ InOrder [emptyMessage] (run Connection.next { inbound := wire [emptyMessage] } lateBody) := by
  have hrun : (run Connection.next { inbound := wire [emptyMessage] } lateBody).handed =
      [(0, [byte 'a'])] := by decide
  refine ⟨hrun, fun h => ?_⟩
  have hhanded := h.handed
  rw [hrun] at hhanded
  exact absurd hhanded (by decide)

end Mqtt

end HaPanel
