import ForgottenServer.Network.ReadBack

/-! # When every call is written whole

A run of write calls on a reset message. Each primitive write tests for its own
room, and `addString` for all of its room at once; the other composite calls do not.
So a run writes each call whole or not at all exactly when no composite call meets a
message with room for some of its writes but not for all of them. -/

namespace ForgottenServer.Network

open ByteMemory LittleEndian

section Calls

variable (simd : Simdutf) (items : Items) (config : Config)

def Call.run (m : NetworkMessage) (c : Call) : Option NetworkMessage :=
  runWrites simd m (c.writes items config)

def Call.encoding (c : Call) : List UInt8 := (c.writes items config).flatMap (Write.encoding simd)

/-- The texts of a call have a Latin-1 form. -/
def Call.Representable (c : Call) : Prop := ∀ w ∈ c.writes items config, w.Representable

/-- Whether a message with this write position treats a call as one unit: it is one
primitive write, or there is room for all of it, or not even for its smallest write. -/
def Call.HasRoom (position : Nat) (c : Call) : Prop :=
  (c.writes items config).length ≤ 1 ∨
  position + (c.encoding simd items config).length < MAX_BODY_LENGTH ∨
  ∀ w ∈ c.writes items config, MAX_BODY_LENGTH ≤ position + (w.encoding simd).length

/-- Every call of a run has room, in the state in which it is made. -/
def HasRoomRun : NetworkMessage → List Call → Prop
  | _, [] => True
  | m, c :: cs => c.HasRoom simd items config m.position ∧
      ∀ m', c.run simd items config m = some m' → HasRoomRun m' cs

/-- A run in which every call extends the body by its whole encoding or leaves the
body, with the calls that were written. In every state the position is behind the
body and below the limit. -/
inductive WholeRun : NetworkMessage → List Call → List Call → NetworkMessage → Prop
  | nil {m} : m.Filled → WholeRun m [] [] m
  | written {m c m' cs kept m''} : m.Filled → c.run simd items config m = some m' →
      m'.body = m.body ++ c.encoding simd items config → WholeRun m' cs kept m'' →
      WholeRun m (c :: cs) (c :: kept) m''
  | refused {m c m' cs kept m''} : m.Filled → c.run simd items config m = some m' →
      m'.body = m.body → WholeRun m' cs kept m'' → WholeRun m (c :: cs) kept m''

/-- The body consists of the encodings of some of the calls, each written whole, and
the matching reads from the start of the body return the values of these calls. -/
def WrittenWhole (m : NetworkMessage) (calls : List Call) : Prop :=
  ∃ kept m', WholeRun simd items config m calls kept m' ∧
    kept.Sublist calls ∧ m'.body = kept.flatMap (Call.encoding simd items config) ∧
    ∃ m'', runReads simd (m'.setBufferPosition 0) (kept.flatMap (Call.reads items config)) =
      some (kept.flatMap (Call.values items config), m'') ∧
      m''.position = 8 + m''.length ∧ m''.overrun = false

end Calls

variable {simd : Simdutf} {items : Items} {config : Config}

/-! ## One call -/

/-- The primitive writes of composite calls: a byte or a number of some bytes. -/
def Write.Plain : Write → Prop
  | .addByte _ => True
  | .add size _ => 0 < size
  | _ => False

theorem Write.Plain.small {w : Write} (h : w.Plain) : w.Small simd := by
  cases w with
  | addByte | add => exact trivial
  | addString | addBytes => exact h.elim

theorem Write.Plain.representable {w : Write} (h : w.Plain) : w.Representable := by
  cases w with
  | addByte | add => exact trivial
  | addString | addBytes => exact h.elim

theorem Write.Plain.encoding_ne_nil {w : Write} (h : w.Plain) : w.encoding simd ≠ [] := by
  cases w with
  | addByte value => simp [Write.encoding]
  | add size value =>
    apply List.ne_nil_of_length_pos
    rw [Write.encoding, length_leBytes]
    exact h
  | addString | addBytes => exact h.elim

theorem plain_addAstraItemMetadata {it : ItemType} : ∀ w ∈ addAstraItemMetadata it, w.Plain := by
  simp [addAstraItemMetadata, Write.Plain]

theorem plain_ite {p : Prop} [Decidable p] {ws vs : List Write} (h : ∀ w ∈ ws, w.Plain)
    (h' : ∀ w ∈ vs, w.Plain) : ∀ w ∈ (if p then ws else vs), w.Plain := by
  split
  · exact h
  · exact h'

theorem plain_append {ws vs : List Write} (h : ∀ w ∈ ws, w.Plain) (h' : ∀ w ∈ vs, w.Plain) :
    ∀ w ∈ ws ++ vs, w.Plain :=
  fun w hw => (List.mem_append.mp hw).elim (h w) (h' w)

/-- A call is one primitive write, or all of its writes are plain. -/
theorem Call.writes_plain (c : Call) :
    (c.writes items config).length ≤ 1 ∨ ∀ w ∈ c.writes items config, w.Plain := by
  cases c with
  | addByte | add | addString | addBytes | addItemId =>
    exact .inl (by simp [Call.writes, Network.addItemId])
  | addDouble | addPosition =>
    exact .inr (by simp [Call.writes, Network.addDouble, Network.addPosition, Write.Plain])
  | addItem flags id count =>
    right
    simp only [Call.writes, Network.addItem, Network.addItemId]
    refine plain_append (plain_append (plain_append ?_ ?_) ?_) ?_
    · simp [Write.Plain]
    · refine plain_ite ?_ (plain_ite ?_ (plain_ite ?_ ?_)) <;> simp [Write.Plain]
    · refine plain_ite ?_ ?_ <;> simp [Write.Plain]
    · refine plain_ite (plain_append ?_ plain_addAstraItemMetadata) ?_ <;> simp [Write.Plain]
  | addItemOf flags item =>
    right
    simp only [Call.writes, Network.addItemOf, Network.addItemId]
    refine plain_append (plain_append (plain_append ?_ ?_) ?_) (plain_ite ?_ ?_)
    · simp [Write.Plain]
    · refine plain_ite (plain_ite ?_ ?_) (plain_ite ?_ (plain_ite ?_ ?_)) <;> simp [Write.Plain]
    · refine plain_ite ?_ ?_ <;> simp [Write.Plain]
    · refine plain_append (plain_append (plain_append (plain_append ?_ (plain_ite ?_ ?_)) ?_)
        (plain_ite ?_ ?_)) plain_addAstraItemMetadata <;> simp [Write.Plain]
    · simp

/-- Plain writes leave some bytes behind the body, and at least one byte when one of
them has room in the state before them. -/
theorem runWrites_grows (hsimd : simd.Correct) (ws : List Write) :
    ∀ {m : NetworkMessage}, m.Filled → (∀ w ∈ ws, w.Plain) →
      ∃ m' part, runWrites simd m ws = some m' ∧ m'.Filled ∧ m'.body = m.body ++ part ∧
        m'.overrun = m.overrun ∧ ∀ w ∈ ws, w.Accepted simd m.position → part ≠ [] := by
  induction ws with
  | nil => intro m h _; exact ⟨m, [], rfl, h, by simp, rfl, by simp⟩
  | cons w ws ih =>
    intro m h hplain
    have hw := hplain w (by simp)
    obtain ⟨hyes, hno⟩ := Write.run_spec hsimd h hw.representable
    by_cases hacc : w.Accepted simd m.position
    · obtain ⟨m₁, hrun, hf, hb, ho⟩ := hyes hacc
      obtain ⟨m₂, part, hrun₂, hf₂, hb₂, ho₂, _⟩ := ih hf fun v hv => hplain v (by simp [hv])
      refine ⟨m₂, w.encoding simd ++ part, ?_, hf₂, ?_, ho₂.trans ho, ?_⟩
      · rw [runWrites, List.foldlM_cons, hrun]
        exact hrun₂
      · rw [hb₂, hb, List.append_assoc]
      · intro _ _ _
        exact List.append_ne_nil_of_left_ne_nil hw.encoding_ne_nil part
    · obtain ⟨m₂, part, hrun₂, hf₂, hb₂, ho₂, hpart⟩ := ih h fun v hv => hplain v (by simp [hv])
      refine ⟨m₂, part, ?_, hf₂, hb₂, ho₂, ?_⟩
      · rw [runWrites, List.foldlM_cons, hno hacc]
        exact hrun₂
      · intro v hv hva
        rcases List.mem_cons.mp hv with rfl | hv
        · exact (hacc hva).elim
        · exact hpart v hv hva

/-- A call written whole leaves room behind it. -/
theorem Call.fits_of_whole {m m' : NetworkMessage} (h : m.Filled) (h' : m'.Filled) {c : Call}
    (hb : m'.body = m.body ++ c.encoding simd items config) :
    m.position + (c.encoding simd items config).length < MAX_BODY_LENGTH := by
  rw [← h.position_of_body h' hb]
  exact h'.position_lt

/-- A call of at most one primitive write is written whole or not at all. -/
theorem Call.run_single (hsimd : simd.Correct) {m : NetworkMessage} (h : m.Filled) {c : Call}
    (hrep : c.Representable items config) (hone : (c.writes items config).length ≤ 1) :
    ∃ m', c.run simd items config m = some m' ∧ m'.Filled ∧ m'.overrun = m.overrun ∧
      ((m'.body = m.body ++ c.encoding simd items config ∧
        ∀ w ∈ c.writes items config, w.Small simd) ∨ m'.body = m.body) := by
  unfold Call.run Call.encoding
  match hws : c.writes items config with
  | [] => exact ⟨m, rfl, h, rfl, .inr rfl⟩
  | [w] =>
    obtain ⟨hyes, hno⟩ := Write.run_spec hsimd h (hrep w (by rw [hws]; simp))
    by_cases hacc : w.Accepted simd m.position
    · obtain ⟨m', hrun, hf, hb, ho⟩ := hyes hacc
      refine ⟨m', ?_, hf, ho, .inl ⟨by simpa using hb, by simpa using hacc.1⟩⟩
      rw [runWrites, List.foldlM_cons, hrun]
      rfl
    · refine ⟨m, ?_, h, rfl, .inr rfl⟩
      rw [runWrites, List.foldlM_cons, hno hacc]
      rfl
  | _ :: _ :: _ =>
    rw [hws] at hone
    simp at hone

/-- One call: it never leaves the buffer, and it is written whole or not at all exactly
when it has room in the state before it. -/
theorem Call.run_spec (hsimd : simd.Correct) {m : NetworkMessage} (h : m.Filled) {c : Call}
    (hrep : c.Representable items config) :
    ∃ m', c.run simd items config m = some m' ∧ m'.Filled ∧ m'.overrun = m.overrun ∧
      (m'.body = m.body ++ c.encoding simd items config ∨ m'.body = m.body →
        c.HasRoom simd items config m.position) ∧
      (c.HasRoom simd items config m.position →
        (m'.body = m.body ++ c.encoding simd items config ∧
          ∀ w ∈ c.writes items config, w.Small simd) ∨ m'.body = m.body) := by
  by_cases hone : (c.writes items config).length ≤ 1
  · obtain ⟨m', hrun, hf, ho, hb⟩ := Call.run_single hsimd h hrep hone
    exact ⟨m', hrun, hf, ho, fun _ => .inl hone, fun _ => hb⟩
  · have hplain := c.writes_plain.resolve_left hone
    obtain ⟨m', part, hrun, hf, hb, ho, hpart⟩ := runWrites_grows hsimd _ h hplain
    refine ⟨m', hrun, hf, ho, ?_, ?_⟩
    · rintro (hwhole | hnone)
      · exact .inr (.inl (Call.fits_of_whole h hf hwhole))
      · -- nothing was written, so no write had room
        refine .inr (.inr fun w hw => Nat.le_of_not_lt fun hroom => ?_)
        refine hpart w hw ⟨(hplain w hw).small, hroom⟩ ?_
        rw [hb] at hnone
        exact List.append_right_eq_self.mp hnone
    · rintro (hone' | hfit | hfull)
      · exact (hone hone').elim
      · obtain ⟨m₁, hrun₁, _, hb₁, _⟩ := runWrites_fits hsimd _ h
          (fun w hw => ⟨(hplain w hw).representable, (hplain w hw).small⟩) hfit
        rw [hrun] at hrun₁
        cases hrun₁
        exact .inl ⟨hb₁, fun w hw => (hplain w hw).small⟩
      · have hrun₁ := runWrites_refused hsimd _ h (fun w hw => (hplain w hw).representable)
          fun w hw hacc => Nat.not_le_of_lt hacc.2 (hfull w hw)
        rw [hrun] at hrun₁
        cases hrun₁
        exact .inr rfl

/-! ## Runs of calls -/

theorem Call.readsBack (hsimd : simd.Correct) {c : Call} (hrep : c.Representable items config)
    (hsmall : ∀ w ∈ c.writes items config, w.Small simd) :
    ReadsBack simd (c.encoding simd items config) (c.reads items config) (c.values items config) := by
  cases c with
  | addPosition x y z =>
    apply ReadsBack.single
    intro m rest hm
    simp only [Call.encoding, Call.writes, Network.addPosition, List.flatMap_cons, List.flatMap_nil,
      Write.encoding, List.append_nil, List.append_assoc, List.singleton_append] at hm
    obtain ⟨m', hr, hu⟩ := hm.getPosition
    exact ⟨m', by simp only [Read.run, hr, Option.bind_eq_bind, Option.bind_some], hu⟩
  | _ => exact ReadsBack.flatMap _ fun w hw => Write.readsBack hsimd (hrep w hw) (hsmall w hw)

/-- A run whose calls have room writes whole calls; those it wrote can be read. -/
theorem wholeRun_of_hasRoom (hsimd : simd.Correct) (calls : List Call) :
    ∀ {m : NetworkMessage}, m.Filled → (∀ c ∈ calls, c.Representable items config) →
      HasRoomRun simd items config m calls →
      ∃ kept m', WholeRun simd items config m calls kept m' ∧ m'.Filled ∧ m'.overrun = m.overrun ∧
        ∀ c ∈ kept, ReadsBack simd (c.encoding simd items config) (c.reads items config)
          (c.values items config) := by
  induction calls with
  | nil =>
    intro m h _ _
    exact ⟨[], m, .nil h, h, rfl, by simp⟩
  | cons c cs ih =>
    intro m h hrep hroom
    have hc := hrep c (by simp)
    obtain ⟨m₁, hrun, hf, ho, _, hwhole⟩ := Call.run_spec hsimd h hc
    obtain ⟨kept, m', hruns, hf', ho', hread⟩ :=
      ih hf (fun d hd => hrep d (by simp [hd])) (hroom.2 m₁ hrun)
    rcases hwhole hroom.1 with ⟨hb, hsmall⟩ | hb
    · refine ⟨c :: kept, m', .written h hrun hb hruns, hf', ho'.trans ho, ?_⟩
      intro d hd
      rcases List.mem_cons.mp hd with rfl | hd
      · exact Call.readsBack hsimd hc hsmall
      · exact hread d hd
    · exact ⟨kept, m', .refused h hrun hb hruns, hf', ho'.trans ho, hread⟩

theorem WholeRun.sublist {m m' : NetworkMessage} {calls kept : List Call}
    (h : WholeRun simd items config m calls kept m') : kept.Sublist calls := by
  induction h with
  | nil => exact .slnil
  | written _ _ _ _ ih => exact ih.cons_cons _
  | refused _ _ _ _ ih => exact ih.cons _

theorem WholeRun.body_eq {m m' : NetworkMessage} {calls kept : List Call}
    (h : WholeRun simd items config m calls kept m') :
    m'.body = m.body ++ kept.flatMap (Call.encoding simd items config) := by
  induction h with
  | nil => simp
  | written _ _ hb _ ih => rw [ih, hb, List.flatMap_cons, List.append_assoc]
  | refused _ _ hb _ ih => rw [ih, hb]

theorem hasRoom_of_wholeRun (hsimd : simd.Correct) {m m' : NetworkMessage} {calls kept : List Call}
    (hrep : ∀ c ∈ calls, c.Representable items config)
    (h : WholeRun simd items config m calls kept m') : HasRoomRun simd items config m calls := by
  have hstep : ∀ {m m₁ : NetworkMessage} {c : Call}, m.Filled → c.Representable items config →
      c.run simd items config m = some m₁ →
      (m₁.body = m.body ++ c.encoding simd items config ∨ m₁.body = m.body) →
      c.HasRoom simd items config m.position := by
    intro m m₁ c hm hc hrun hb
    obtain ⟨m₂, hrun₂, _, _, hroom, _⟩ := Call.run_spec hsimd hm hc
    rw [hrun] at hrun₂
    cases hrun₂
    exact hroom hb
  induction h with
  | nil => exact trivial
  | written hm hrun hb _ ih =>
    refine ⟨hstep hm (hrep _ (by simp)) hrun (.inl hb), fun m₂ hrun₂ => ?_⟩
    rw [hrun] at hrun₂
    cases hrun₂
    exact ih fun d hd => hrep d (by simp [hd])
  | refused hm hrun hb _ ih =>
    refine ⟨hstep hm (hrep _ (by simp)) hrun (.inr hb), fun m₂ hrun₂ => ?_⟩
    rw [hrun] at hrun₂
    cases hrun₂
    exact ih fun d hd => hrep d (by simp [hd])

theorem NetworkMessage.filled_reset (m : NetworkMessage) : m.reset.Filled :=
  ⟨rfl, by rw [MAX_BODY_LENGTH_eq]; exact (by decide : (8 : Nat) < 65486)⟩

theorem NetworkMessage.Filled.unread {m : NetworkMessage} (h : m.Filled) (ho : m.overrun = false) :
    (m.setBufferPosition 0).Unread m.body := by
  have hpos := h.position_eq
  have hlt := h.position_lt
  have hset : m.setBufferPosition 0 = { m with position := 8 } := rfl
  rw [hset]
  refine ⟨?_, by simp, by show 8 + m.length < _; omega, ho⟩
  show (m.buffer.take (8 + m.length)).drop 8 = m.body
  rw [List.drop_take, Nat.add_sub_cancel_left]
  rfl

/-- A run of write calls on a reset message writes each call whole or not at all, with a
body that reads back, exactly when every call has room in the state it is made in. -/
theorem writtenWhole_iff (hsimd : simd.Correct) (m : NetworkMessage) (calls : List Call)
    (hrep : ∀ c ∈ calls, c.Representable items config) :
    WrittenWhole simd items config m.reset calls ↔ HasRoomRun simd items config m.reset calls := by
  constructor
  · rintro ⟨kept, m', hrun, _⟩
    exact hasRoom_of_wholeRun hsimd hrep hrun
  · intro hroom
    obtain ⟨kept, m', hrun, hf, ho, hread⟩ := wholeRun_of_hasRoom hsimd calls m.filled_reset hrep hroom
    have hbody : m'.body = kept.flatMap (Call.encoding simd items config) := hrun.body_eq
    have hunread := hf.unread ho
    rw [hbody] at hunread
    obtain ⟨m'', hreads, hend⟩ := ReadsBack.flatMap kept hread (m'.setBufferPosition 0) []
      (by simpa using hunread)
    exact ⟨kept, m', hrun, hrun.sublist, hbody, m'', hreads, by simpa using hend.length_eq,
      hend.no_overrun⟩

/-- A position and a text fit into an empty message. -/
theorem writtenWhole_position_text :
    WrittenWhole .scalar (fun _ => {}) ⟨true, true⟩ NetworkMessage.new.reset
      [.addPosition 1000 1000 7, .addString (toUtf8 [72, 0xE9])] := by
  refine (writtenWhole_iff Simdutf.scalar_correct NetworkMessage.new _ ?_).mpr ?_
  · intro c hc
    simp only [List.mem_cons, List.not_mem_nil, or_false] at hc
    rcases hc with rfl | rfl
    · simp [Call.Representable, Call.writes, Network.addPosition, Write.Representable]
    · intro w hw
      rw [List.mem_singleton.mp hw]
      exact ⟨_, rfl⟩
  · refine ⟨.inr (.inl ?_), fun m' _ => ⟨.inl ?_, fun _ _ => trivial⟩⟩
    · exact (by decide : (8 : Nat) + 5 < 65486)
    · simp [Call.writes]

/-! ## Near the end of the buffer -/

theorem representable_addBytes (bytes : List UInt8) :
    (Call.addBytes bytes).Representable items config := by
  intro w hw
  rw [List.mem_singleton.mp hw]
  exact trivial

theorem Call.run_addBytes (hsimd : simd.Correct) {m : NetworkMessage} (h : m.Filled)
    {bytes : List UInt8} (hsmall : bytes.length ≤ 8192)
    (hfit : m.position + bytes.length < MAX_BODY_LENGTH) :
    ∃ m', Call.run simd items config m (.addBytes bytes) = some m' ∧ m'.Filled ∧
      m'.position = m.position + bytes.length := by
  obtain ⟨m', hrun, hf, hb, _⟩ := runWrites_fits hsimd [.addBytes bytes] h
    (by simpa [Write.Representable, Write.Small] using hsmall) (by simpa [Write.encoding] using hfit)
  exact ⟨m', hrun, hf, by simpa [Write.encoding] using h.position_of_body hf hb⟩

/-- A call made behind a number of equal blocks meets the position behind them. -/
theorem hasRoom_behind_blocks (hsimd : simd.Correct) {bytes : List UInt8}
    (hsmall : bytes.length ≤ 8192) {c : Call} (n : Nat) :
    ∀ {m : NetworkMessage}, m.Filled → m.position + n * bytes.length < MAX_BODY_LENGTH →
      HasRoomRun simd items config m (List.replicate n (.addBytes bytes) ++ [c]) →
      c.HasRoom simd items config (m.position + n * bytes.length) := by
  induction n with
  | zero =>
    intro m _ _ h
    simpa using h.1
  | succ n ih =>
    intro m hm hfit h
    rw [Nat.add_mul, Nat.one_mul] at hfit ⊢
    obtain ⟨m', hrun, hf, hpos⟩ := Call.run_addBytes hsimd hm hsmall (by omega)
    have hroom := ih hf (by omega) (h.2 m' hrun)
    rwa [hpos, Nat.add_assoc, Nat.add_comm bytes.length] at hroom

/-- Nine blocks of 7275 bytes leave three bytes of room. `addPosition` then writes its
first coordinate and nothing else. -/
theorem not_writtenWhole_addPosition :
    ¬ WrittenWhole .scalar (fun _ => {}) ⟨true, true⟩ NetworkMessage.new.reset
      (List.replicate 9 (.addBytes (List.replicate 7275 0)) ++ [.addPosition 1000 1000 7]) := by
  rintro ⟨kept, m', hrun, _⟩
  have hrep : ∀ c ∈ List.replicate 9 (Call.addBytes (List.replicate 7275 0)) ++
      [.addPosition 1000 1000 7], c.Representable (fun _ => {}) ⟨true, true⟩ := by
    intro c hc
    rcases List.mem_append.mp hc with hc | hc
    · rw [List.eq_of_mem_replicate hc]
      exact representable_addBytes _
    · rw [List.mem_singleton.mp hc]
      simp [Call.Representable, Call.writes, Network.addPosition, Write.Representable]
  have hroom := hasRoom_behind_blocks Simdutf.scalar_correct (by rw [List.length_replicate]; omega) 9
    NetworkMessage.new.filled_reset
    (by rw [List.length_replicate]; exact (by decide : (8 : Nat) + 9 * 7275 < 65486))
    (hasRoom_of_wholeRun Simdutf.scalar_correct hrep hrun)
  have hpos : NetworkMessage.new.reset.position = 8 := rfl
  rw [List.length_replicate, hpos] at hroom
  simp [Call.HasRoom, Call.encoding, Call.writes, Network.addPosition, Write.encoding,
    MAX_BODY_LENGTH_eq] at hroom

end ForgottenServer.Network
