import TraceDebugger.Proofs.CommandWords
import TraceDebugger.Proofs.SelectedCall

/-!
# Moves along the call stack

A call is selected by its depth, or by its distance from the selected one, further out or further
in (`Move`). Distances and depths are whole numbers of 64 bits, sums of them stop at the ends of the
range, and the smallest number has no opposite. None of this shows: as long as there are fewer calls
than such numbers, a line that asks for a move does what sums without bounds say
(`Session.execute_move`), and where it fails only the number in the report is moved to the end of
the range.
-/

namespace TraceDebugger

namespace FrameNumber

/-- A frame number is a whole number that can be asked for. -/
def InRange (k : Int) : Prop := min ≤ k ∧ k ≤ max

theorem clamp_of_inRange {k : Int} (h : InRange k) : clamp k = k := by
  obtain ⟨hmin, hmax⟩ := h
  unfold clamp
  rw [if_neg (Int.not_lt.2 hmin), if_neg (Int.not_lt.2 hmax)]

theorem clamp_of_max_le {k : Int} (h : max ≤ k) : clamp k = max := by
  unfold max at h
  unfold clamp min max
  split
  · omega
  · split <;> omega

/-- A number lies below a bound that can be asked for if the nearest one that can be asked for does,
and then it is that one. -/
theorem clamp_lt_iff {k : Int} {size : Nat} (h : size ≤ max) :
    (0 ≤ clamp k ∧ clamp k < size ↔ 0 ≤ k ∧ k < size) ∧
      (0 ≤ k ∧ k < size → clamp k = k) := by
  unfold max at h
  unfold clamp min max
  split
  · omega
  · split <;> omega

/-- The smallest number has no opposite, but a sum with what stands for it is out of range
anyway. -/
theorem clamp_add_clamp_neg (c : Nat) {k : Int} (hk : InRange k) :
    clamp (c + clamp (-k)) = clamp (c - k) := by
  by_cases hsmallest : k = min
  · have hopposite : max ≤ -k := by
      rw [hsmallest]
      decide
    have hleft : max ≤ c + max := by omega
    have hright : max ≤ c - k := by omega
    rw [clamp_of_max_le hopposite, clamp_of_max_le hleft, clamp_of_max_le hright]
  · have hrange : InRange (-k) := by
      unfold InRange min max at *
      omega
    rw [clamp_of_inRange hrange, Int.sub_eq_add_neg]

end FrameNumber

/-- The commands that select a call. -/
inductive Move where
  /-- To a depth. -/
  | frame
  /-- Further out. -/
  | up
  /-- Further in. -/
  | down
  deriving DecidableEq

namespace Move

/-- The name of the command. -/
def word : Move → String
  | .frame => "frame"
  | .up => "up"
  | .down => "down"

/-- Where a move by a number leads from a depth. -/
def target (cursor : Nat) (k : Int) : Move → Int
  | .frame => k
  | .up => cursor + k
  | .down => cursor - k

/-- The move that a request asks for, with its number as it was written. -/
def ofRequest? : Request → Option (Move × Option String)
  | .frame number => some (.frame, some number)
  | .up count => some (.up, count)
  | .down count => some (.down, count)
  | _ => none

/-- A line asks for a move by a number. -/
def AskedBy (line : String) (k : Int) (m : Move) : Prop :=
  ∃ word args request number, Text.commandWords line = word :: args ∧
    Request.ofWords word args = .ok request ∧ ofRequest? request = some (m, number) ∧
    FrameNumber.read "frame number" number = .ok k

/-- The line that asks for a move by a number. -/
def line (k : Int) (m : Move) : String := m.word ++ " " ++ toString k

/-- What a session replies to a move. -/
def reply (s : Session) (k : Int) : Move → Reply
  | .frame => s.moveTo k true
  | .up => s.moveTo k false
  | .down => s.moveTo (FrameNumber.clamp (-k)) false

variable {m : Move} {k : Int}

theorem inRange_of_read {what : String} {number : Option String}
    (h : FrameNumber.read what number = .ok k) : FrameNumber.InRange k := by
  unfold FrameNumber.read at h
  split at h
  · cases h
    exact ⟨by decide, by decide⟩
  · split at h
    · rename_i hread
      cases h
      exact Text.bounds_of_readInt? hread
    · cases h

theorem reply_of_ofRequest? {s : Session} {request : Request} {number : Option String}
    (h : ofRequest? request = some (m, number))
    (hread : FrameNumber.read "frame number" number = .ok k) : s.reply request = m.reply s k := by
  cases request with
  | frame number =>
    cases h
    change s.frame _ = _
    unfold Session.frame
    rw [hread]
    rfl
  | up count =>
    cases h
    change s.up _ = _
    unfold Session.up
    rw [hread]
    rfl
  | down count =>
    cases h
    change s.down _ = _
    unfold Session.down
    rw [hread]
    rfl
  | _ => cases h

/-- A line that asks for a move is replied to as the move is, and its number can be asked for. -/
theorem reply_of_askedBy (s : Session) {line : String} (h : m.AskedBy line k) :
    s.replyTo (Text.commandWords line) = m.reply s k ∧ FrameNumber.InRange k := by
  obtain ⟨word, args, request, number, hwords, hrequest, hmove, hread⟩ := h
  refine ⟨?_, inRange_of_read hread⟩
  unfold Session.replyTo
  rw [hwords]
  dsimp only
  rw [hrequest]
  exact reply_of_ofRequest? hmove hread

theorem isBare_word (m : Move) :
    (∀ c ∈ m.word.toList, Text.IsBare c) ∧ m.word.toList ≠ [] := by
  have hword : m.word.toList = ['f', 'r', 'a', 'm', 'e'] ∨ m.word.toList = ['u', 'p'] ∨
      m.word.toList = ['d', 'o', 'w', 'n'] := by
    cases m with
    | frame => exact .inl rfl
    | up => exact .inr (.inl rfl)
    | down => exact .inr (.inr rfl)
  unfold Text.IsBare Text.IsPlain
  rcases hword with hword | hword | hword <;> rw [hword] <;>
    simp only [List.forall_mem_cons, List.not_mem_nil, false_implies, implies_true] <;> decide

/-- A move by a number that can be asked for has a line. -/
theorem askedBy_line (h : FrameNumber.InRange k) : m.AskedBy (m.line k) k := by
  obtain ⟨hword, hword'⟩ := m.isBare_word
  obtain ⟨hnumber, hnumber'⟩ := Text.isBare_toString k
  have hwords : Text.commandWords (m.line k) = [m.word, toString k] :=
    Text.commandWords_two hword hnumber hword' hnumber'
  have hread : FrameNumber.read "frame number" (some (toString k)) = .ok k := by
    unfold FrameNumber.read
    dsimp only
    rw [Text.readInt?_toString h.1 h.2]
  cases m with
  | frame => exact ⟨_, _, .frame (toString k), some (toString k), hwords, rfl, rfl, hread⟩
  | up => exact ⟨_, _, .up (toString k), some (toString k), hwords, rfl, rfl, hread⟩
  | down => exact ⟨_, _, .down (toString k), some (toString k), hwords, rfl, rfl, hread⟩

/-! ## Where a move leads -/

variable {s : Session}

/-- Every move is one to a depth, the nearest to where it leads that can be asked for. -/
theorem reply_eq_moveTo (hk : FrameNumber.InRange k) :
    m.reply s k = s.moveTo (FrameNumber.clamp (m.target s.cursor k)) true := by
  cases m with
  | frame =>
    change s.moveTo k true = s.moveTo (FrameNumber.clamp k) true
    rw [FrameNumber.clamp_of_inRange hk]
  | up => rfl
  | down =>
    change s.moveTo (FrameNumber.clamp (s.cursor + FrameNumber.clamp (-k))) true =
      s.moveTo (FrameNumber.clamp (s.cursor - k)) true
    rw [FrameNumber.clamp_add_clamp_neg s.cursor hk]

/-- A move within the stack selects the call that it leads to and shows it. -/
theorem exists_reply_eq (hcalls : 0 < s.stack.size) (hsize : s.stack.size ≤ FrameNumber.max)
    (hk : FrameNumber.InRange k)
    (h : 0 ≤ m.target s.cursor k ∧ m.target s.cursor k < s.stack.size) :
    ∃ texts : List String, m.reply s k =
      ⟨.select (m.target s.cursor k).toNat :: texts.map .write, .ok .prompt⟩ := by
  -- a depth in the stack can be asked for, so the nearest number to it is the depth itself
  rw [reply_eq_moveTo hk, (FrameNumber.clamp_lt_iff hsize).2 h]
  generalize m.target s.cursor k = target at h ⊢
  let line := fun f => s.frameLine target.toNat target.toNat f ++ "\n"
  refine ⟨(s.stack.frame? target.toNat).toList.map line, ?_⟩
  unfold Session.moveTo
  rw [if_neg (by omega), List.map_map]
  dsimp only
  rw [if_pos rfl, if_pos h]
  rfl

/-- Any other move is reported with the number that it leads to, or else the nearest one. -/
theorem reply_eq_fail (hcalls : 0 < s.stack.size) (hsize : s.stack.size ≤ FrameNumber.max)
    (hk : FrameNumber.InRange k)
    (h : ¬ (0 ≤ m.target s.cursor k ∧ m.target s.cursor k < s.stack.size)) :
    m.reply s k =
      .fail (.frameOutOfRange (FrameNumber.clamp (m.target s.cursor k)) (s.stack.size - 1)) := by
  rw [← (FrameNumber.clamp_lt_iff hsize).1] at h
  rw [reply_eq_moveTo hk]
  unfold Session.moveTo
  rw [if_neg (by omega)]
  dsimp only
  rw [if_pos rfl, if_neg h]

end Move

namespace Session

variable {s : Session} {m : Move} {k : Int}

/-- What is shown after a call is selected does not select another, also if it is cut short. -/
theorem unmoved_carryOut_select (s : Session) (depth : Nat) (texts : List String) :
    (s.select depth).Unmoved
      (s.carryOut ⟨.select depth :: texts.map .write, .ok .prompt⟩).session := by
  have hperform : (s.select depth).Unmoved (s.perform (.select depth :: texts.map .write)).1 := by
    refine unmoved_perform (s := s.select depth) fun other hselect => ?_
    obtain ⟨text, -, heq⟩ := List.mem_map.1 hselect
    cases heq
  exact hperform.trans (s.unmoved_report ⟨.select depth :: texts.map .write, .ok .prompt⟩)

/-- A line that asks for a move within the stack selects the call that it leads to, whether or not
that can be shown. -/
theorem unmoved_execute_of_inStack (hcalls : 0 < s.stack.size)
    (hsize : s.stack.size ≤ FrameNumber.max) {line : String} (hasked : m.AskedBy line k)
    (h : 0 ≤ m.target s.cursor k ∧ m.target s.cursor k < s.stack.size) :
    (s.replyTo (Text.commandWords line)).result = .ok .prompt ∧
      (s.select (m.target s.cursor k).toNat).Unmoved (s.execute line).session := by
  obtain ⟨hreply, hk⟩ := Move.reply_of_askedBy s hasked
  obtain ⟨texts, htexts⟩ := Move.exists_reply_eq hcalls hsize hk h
  unfold execute
  rw [hreply, htexts]
  exact ⟨rfl, s.unmoved_carryOut_select _ texts⟩

/-- A line that asks for any other move is reported and selects nothing. -/
theorem unmoved_execute_of_not_inStack (hcalls : 0 < s.stack.size)
    (hsize : s.stack.size ≤ FrameNumber.max) {line : String} (hasked : m.AskedBy line k)
    (h : ¬ (0 ≤ m.target s.cursor k ∧ m.target s.cursor k < s.stack.size)) :
    s.replyTo (Text.commandWords line) =
        .fail (.frameOutOfRange (FrameNumber.clamp (m.target s.cursor k)) (s.stack.size - 1)) ∧
      s.Unmoved (s.execute line).session := by
  obtain ⟨hreply, hk⟩ := Move.reply_of_askedBy s hasked
  rw [Move.reply_eq_fail hcalls hsize hk h] at hreply
  refine ⟨hreply, ?_⟩
  unfold execute
  rw [hreply]
  exact s.unmoved_report (.fail _)

/-- The move further in by the same number leads back. -/
theorem unmoved_back (hsettled : s.Settled) (hcalls : 0 < s.stack.size)
    (hsize : s.stack.size ≤ FrameNumber.max) {there back : String}
    (hthere : Move.up.AskedBy there k) (hback : Move.down.AskedBy back k)
    (h : 0 ≤ Move.up.target s.cursor k ∧ Move.up.target s.cursor k < s.stack.size) :
    ((s.execute there).session.replyTo (Text.commandWords back)).result = .ok .prompt ∧
      s.Unmoved ((s.execute there).session.execute back).session := by
  obtain ⟨-, hgone⟩ := unmoved_execute_of_inStack hcalls hsize hthere h
  generalize (s.execute there).session = s' at hgone ⊢
  have hprogram : s'.program = s.program := hgone.program
  have hstack : s'.stack = s.stack := hgone.stack
  have hcursor : s.cursor < s.stack.size := by
    have := hsettled.cursor
    omega
  have htarget : Move.down.target s'.cursor k = s.cursor := by
    rw [hgone.cursor]
    change (((s.cursor + k : Int).toNat : Nat) : Int) - k = s.cursor
    have hnonneg : (0 : Int) ≤ s.cursor + k := h.1
    omega
  have hcalls' : 0 < s'.stack.size := by
    rw [hstack]
    exact hcalls
  have hsize' : s'.stack.size ≤ FrameNumber.max := by
    rw [hstack]
    exact hsize
  have hinstack : 0 ≤ Move.down.target s'.cursor k ∧
      Move.down.target s'.cursor k < s'.stack.size := by
    rw [htarget, hstack]
    omega
  obtain ⟨hreply, hreturned⟩ := unmoved_execute_of_inStack hcalls' hsize' hback hinstack
  rw [htarget] at hreturned
  refine ⟨hreply, ?_⟩
  -- the scope came from the call before the move, and comes from the same call after it
  have hselected : s.Unmoved (s'.select s.cursor) := by
    refine ⟨hprogram, hstack, rfl, ?_⟩
    change (s'.stack.frame? s.cursor).bind (scopeOf s'.program) = s.scope
    rw [hprogram, hstack]
    exact (settled_iff.1 hsettled).2.symm
  exact hselected.trans hreturned

/-- Lines that ask for a move do what sums of whole numbers say, as long as the calls can be
numbered and for every number that can be asked for: a move that leads to a call selects it, any
other is reported with the nearest number to where it leads and selects nothing. So a move further
out that succeeds is undone by the move further in by the same number. -/
theorem execute_move (hsettled : s.Settled) (hcalls : 0 < s.stack.size)
    (hsize : s.stack.size ≤ FrameNumber.max) (hk : FrameNumber.min ≤ k ∧ k ≤ FrameNumber.max) :
    (∀ m : Move, m.AskedBy (m.line k) k) ∧
    (∀ (m : Move) (line : String), m.AskedBy line k →
      let target := m.target s.cursor k
      let r := s.replyTo (Text.commandWords line)
      let s' := (s.execute line).session
      (r.result = .ok .prompt ↔ 0 ≤ target ∧ target < s.stack.size) ∧
      (r.result = .ok .prompt → s'.cursor = target ∧
        s'.scope = (s.stack.frame? s'.cursor).bind (scopeOf s.program)) ∧
      (r.result ≠ .ok .prompt →
        r = .fail (.frameOutOfRange (FrameNumber.clamp target) (s.stack.size - 1)) ∧
          s'.cursor = s.cursor ∧ s'.scope = s.scope)) ∧
    ∀ there back : String, Move.up.AskedBy there k → Move.down.AskedBy back k →
      (s.replyTo (Text.commandWords there)).result = .ok .prompt →
      let s' := (s.execute there).session
      let s'' := (s'.execute back).session
      (s'.replyTo (Text.commandWords back)).result = .ok .prompt ∧
        s''.cursor = s.cursor ∧ s''.scope = s.scope := by
  have hiff : ∀ (m : Move) (line : String), m.AskedBy line k →
      ((s.replyTo (Text.commandWords line)).result = .ok .prompt ↔
        0 ≤ m.target s.cursor k ∧ m.target s.cursor k < s.stack.size) := by
    intro m line hasked
    constructor
    · intro hresult
      by_cases h : 0 ≤ m.target s.cursor k ∧ m.target s.cursor k < s.stack.size
      · exact h
      · rw [(unmoved_execute_of_not_inStack hcalls hsize hasked h).1] at hresult
        cases hresult
    · exact fun h => (unmoved_execute_of_inStack hcalls hsize hasked h).1
  refine ⟨fun m => Move.askedBy_line hk, fun m line hasked => ?_,
    fun there back hthere hback hresult => ?_⟩
  · intro target r s'
    refine ⟨hiff m line hasked, fun hresult => ?_, fun hresult => ?_⟩
    · have h := (hiff m line hasked).1 hresult
      obtain ⟨-, hgone⟩ := unmoved_execute_of_inStack hcalls hsize hasked h
      have hcursor : s'.cursor = target.toNat := hgone.cursor
      refine ⟨?_, ?_⟩
      · rw [hcursor]
        exact Int.toNat_of_nonneg h.1
      · rw [hcursor]
        exact hgone.scope
    · have h := mt (hiff m line hasked).2 hresult
      obtain ⟨hreply, hstays⟩ := unmoved_execute_of_not_inStack hcalls hsize hasked h
      exact ⟨hreply, hstays.cursor, hstays.scope⟩
  · have h := (hiff .up there hthere).1 hresult
    obtain ⟨hreply, hback'⟩ := unmoved_back hsettled hcalls hsize hthere hback h
    exact ⟨hreply, hback'.cursor, hback'.scope⟩

/-- A session with two calls, each in a scope of its own. -/
def inTwoCalls : Session :=
  .start {}
    ⟨[{ function := ⟨⟨0⟩, 0⟩, scope := some ⟨1⟩ }, { function := ⟨⟨0⟩, 1⟩, scope := some ⟨2⟩ }]⟩
    {} .stepInstruction {} {} {}

/-- The outer call is selected, then the inner one again. Two calls further out there is none. -/
theorem execute_move_inTwoCalls :
    let s := inTwoCalls
    let s' := (s.execute (Move.up.line 1)).session
    let s'' := (s'.execute (Move.down.line 1)).session
    s.Settled ∧ 0 < s.stack.size ∧ s.stack.size ≤ FrameNumber.max ∧
      FrameNumber.min ≤ 1 ∧ 1 ≤ FrameNumber.max ∧ s'.cursor = 1 ∧ s'.scope = some ⟨2⟩ ∧
      s''.cursor = 0 ∧ s''.scope = some ⟨1⟩ ∧
      s.replyTo (Text.commandWords (Move.up.line 2)) = .fail (.frameOutOfRange 2 1) := by
  intro s s' s''
  have hsettled : s.Settled := settled_start _ _ _ _ _ _ _
  have hcalls : 0 < s.stack.size := by decide
  have hsize : s.stack.size ≤ FrameNumber.max := by decide
  have hone : FrameNumber.min ≤ 1 ∧ 1 ≤ FrameNumber.max := by decide
  have htwo : FrameNumber.min ≤ 2 ∧ 2 ≤ FrameNumber.max := by decide
  obtain ⟨hline, hmove, hback⟩ := execute_move hsettled hcalls hsize hone
  obtain ⟨hline', hmove', -⟩ := execute_move hsettled hcalls hsize htwo
  obtain ⟨hiff, hgone, -⟩ := hmove .up _ (hline .up)
  have hresult := hiff.2 (by decide)
  obtain ⟨hcursor, hscope⟩ := hgone hresult
  obtain ⟨-, hcursor', hscope'⟩ := hback _ _ (hline .up) (hline .down) hresult
  obtain ⟨hiff', -, hreport⟩ := hmove' .up _ (hline' .up)
  have hcursor₁ : s'.cursor = 1 := Int.ofNat.inj hcursor
  refine ⟨hsettled, hcalls, hsize, hone.1, hone.2, hcursor₁, ?_, ?_, ?_, ?_⟩
  · rw [hscope, hcursor₁]
    rfl
  · simp only [s'', s', hcursor']
    rfl
  · simp only [s'', s', hscope']
    rfl
  · exact (hreport (mt hiff'.1 (by decide))).1

end Session

end TraceDebugger
