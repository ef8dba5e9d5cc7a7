import KotlinMetadata.Proofs.Wire.Forward
import KotlinMetadata.Wire.Session
import Mathlib.Data.List.Forall2

/-!
# Sessions stay inside their buffers

Whatever steps a session takes, failed ones included, each of its cursors
stands in a buffer of its own, moves forward there until it is left, and lies
in what the cursor around it has read.  So a loop that reads a tag in every
round comes to an end.
-/

namespace KotlinMetadata.Wire

/-- The bytes of the buffer that a result holds, if it holds any. -/
def ReadResult.data? : ReadResult → Option (List UInt8)
  | .bytes data => some data
  | .field found => some found.data
  | .text value => some value.toUTF8.toList
  | _ => none

namespace ReadSession

/-! ## One step -/

/-- What a step does to the cursors of a session. -/
inductive Moves : ReadSession → ReadSession → Prop
  /-- The cursor on top stays or moves forward. -/
  | forward {top next : Cursor} {below : List Cursor} :
      top.Reaches next → Moves ⟨top, below⟩ ⟨next, below⟩
  /-- The cursor on top moves behind a message, and another one starts in the message. -/
  | enter {top outer : Cursor} {below : List Cursor} {length data : List UInt8} :
      top.depth < nestingLimit → top.Passes (length ++ data) outer →
      Moves ⟨top, below⟩ ⟨{ rest := data, depth := top.depth + 1 }, outer :: below⟩
  /-- The cursor on top is dropped. -/
  | leave {top outer : Cursor} {below : List Cursor} : Moves ⟨top, outer :: below⟩ ⟨outer, below⟩

theorem Moves.stay (session : ReadSession) : Moves session session :=
  .forward (.refl session.top)

theorem moves_act {α : Type} {action : Read α} (forward : Forward action)
    (result : α → ReadResult) (session : ReadSession) :
    Moves session (session.act action result).2 := by
  have reaches := forward session.top
  revert reaches
  rw [act]
  cases action session.top with
  | ok value top => exact .forward
  | error fault top => exact .forward

theorem moves_enter (session : ReadSession) : Moves session session.enter.2 := by
  have reaches := Read.forward_nested session.top
  revert reaches
  rw [enter]
  cases read : Read.nested session.top with
  | ok inner outer =>
      intro _
      obtain ⟨shallow, data, sliced, rfl⟩ := Read.nested_eq_ok_iff.mp read
      obtain ⟨length, _, _, passes⟩ := Read.slice_eq_ok_iff.mp sliced
      exact .enter shallow passes
  | error fault top => exact .forward

theorem moves_leave (session : ReadSession) : Moves session session.leave.2 := by
  rcases session with ⟨top, below⟩
  cases below with
  | nil => exact .stay _
  | cons outer below => exact .leave

/-- Every step, failed or not, moves the cursors in one of the three ways. -/
theorem moves_step (session : ReadSession) (step : ReadStep) :
    Moves session (session.step step).2 := by
  cases step with
  | varint => exact moves_act Read.forward_varint _ session
  | tag => exact moves_act Read.forward_tag _ session
  | int32 => exact moves_act (Read.forward_varint.map int32OfWord) _ session
  | bool => exact moves_act (Read.forward_varint.map boolOfWord) _ session
  | sint64 => exact moves_act (Read.forward_varint.map unzigzag) _ session
  | float => exact moves_act ((Read.forward_take 4).map _) _ session
  | double => exact moves_act ((Read.forward_take 8).map _) _ session
  | slice => exact moves_act Read.forward_slice _ session
  | text => exact moves_act Read.forward_text _ session
  | int32s wire => exact moves_act (Read.forward_int32s wire) _ session
  | skip number wire => exact moves_act (Read.forward_rawField number wire) _ session
  | field => exact moves_act (Read.forward_fieldEntry _) _ session
  | rest => exact .stay session
  | enter => exact moves_enter session
  | leave => exact moves_leave session

/-! ## Buffers -/

/-- The buffers that the cursors of a session read, the innermost first.  The outermost one is
`bytes`; each other one is the end of what the cursor around it has read. -/
inductive Stacked (bytes : List UInt8) : ReadSession → List (List UInt8) → Prop
  | outermost {top : Cursor} : top.Within bytes → top.depth = 0 → Stacked bytes ⟨top, []⟩ [bytes]
  | inside {top outer : Cursor} {below : List Cursor} {buffer around : List UInt8}
      {buffers : List (List UInt8)} :
      Stacked bytes ⟨outer, below⟩ (around :: buffers) → top.Within buffer →
      top.depth = outer.depth + 1 → top.depth ≤ nestingLimit →
      buffer <:+ around.take outer.position →
      Stacked bytes ⟨top, outer :: below⟩ (buffer :: around :: buffers)

namespace Stacked

variable {bytes : List UInt8} {session after : ReadSession} {buffers : List (List UInt8)}

theorem ofBytes (bytes : List UInt8) : Stacked bytes (.ofBytes bytes) [bytes] :=
  .outermost (.start bytes 0) rfl

/-- The cursor on top may move forward. -/
theorem forward {top next : Cursor} {below : List Cursor}
    (stacked : Stacked bytes ⟨top, below⟩ buffers) (reaches : top.Reaches next) :
    Stacked bytes ⟨next, below⟩ buffers := by
  have depth_eq := reaches.depth_eq
  cases stacked with
  | outermost within depth => exact .outermost (within.of_reaches reaches) (depth_eq.trans depth)
  | inside around within depth shallow slice =>
      exact .inside around (within.of_reaches reaches) (depth_eq.trans depth)
        (Nat.le_trans (Nat.le_of_eq depth_eq) shallow) slice

theorem exists_within (stacked : Stacked bytes session buffers) :
    ∃ buffer others, buffers = buffer :: others ∧ session.top.Within buffer := by
  cases stacked with
  | outermost within _ => exact ⟨_, _, rfl, within⟩
  | inside _ within _ _ _ => exact ⟨_, _, rfl, within⟩

/-- A step keeps each cursor in its buffer. -/
theorem of_moves (stacked : Stacked bytes session buffers) (moves : Moves session after) :
    ∃ buffers, Stacked bytes after buffers := by
  cases moves with
  | forward reaches => exact ⟨buffers, stacked.forward reaches⟩
  | enter shallow passes =>
      rename_i top outer below length data
      obtain ⟨around, others, rfl, within⟩ := stacked.exists_within
      have reaches : top.Reaches outer := ⟨_, passes⟩
      refine ⟨data :: around :: others, .inside (stacked.forward reaches) (.start data _) ?_ ?_ ?_⟩
      · exact congrArg (· + 1) reaches.depth_eq.symm
      · exact shallow
      · refine ⟨around.take top.position ++ length, ?_⟩
        rw [within.take_of_passes passes, List.append_assoc]
  | leave =>
      cases stacked with
      | inside around _ _ _ _ => exact ⟨_, around⟩

/-- What holds of each cursor in its buffer. -/
theorem forall₂ (stacked : Stacked bytes session buffers) :
    List.Forall₂ (fun cursor buffer => cursor.Within buffer ∧ cursor.depth ≤ nestingLimit)
      (session.top :: session.below) buffers := by
  induction stacked with
  | outermost within depth => exact .cons ⟨within, depth ▸ Nat.zero_le _⟩ .nil
  | inside _ within _ shallow _ ih => exact .cons ⟨within, shallow⟩ ih

end Stacked

/-! ## Runs -/

@[simp]
theorem after_nil (session : ReadSession) : session.after [] = session :=
  rfl

@[simp]
theorem after_cons (session : ReadSession) (step : ReadStep) (steps : List ReadStep) :
    session.after (step :: steps) = (session.step step).2.after steps := by
  rw [after, after, run, List.getLast?_cons]
  cases ((session.step step).2.run steps).getLast? with
  | none => rfl
  | some last => rfl

theorem Stacked.after {bytes : List UInt8} {session : ReadSession} {buffers : List (List UInt8)}
    (stacked : Stacked bytes session buffers) (steps : List ReadStep) :
    ∃ buffers, Stacked bytes (session.after steps) buffers := by
  induction steps generalizing session buffers with
  | nil => exact ⟨buffers, stacked⟩
  | cons step steps ih =>
      obtain ⟨_, next⟩ := stacked.of_moves (moves_step session step)
      rw [after_cons]
      exact ih next

theorem cursors_mk_cons (top outer : Cursor) (below : List Cursor) :
    cursors ⟨top, outer :: below⟩ = cursors ⟨outer, below⟩ ++ [top] := by
  rw [cursors, List.reverse_cons]
  rfl

theorem length_cursors (session : ReadSession) :
    session.cursors.length = session.below.length + 1 := by
  rw [cursors, List.length_append, List.length_reverse]
  rfl

theorem getElem?_cursors_top (session : ReadSession) :
    session.cursors[session.below.length]? = some session.top := by
  rw [cursors, List.getElem?_append_right (by simp), List.length_reverse, Nat.sub_self]
  rfl

/-- The steps leave no cursor up to a level, where the outermost cursor is on level 0. -/
def Stays (session : ReadSession) (level : Nat) : List ReadStep → Prop
  | [] => level < session.cursors.length
  | step :: steps => level < session.cursors.length ∧ (session.step step).2.Stays level steps

instance decidableStays (session : ReadSession) (level : Nat) :
    (steps : List ReadStep) → Decidable (session.Stays level steps)
  | [] => inferInstanceAs (Decidable (level < session.cursors.length))
  | step :: steps =>
      have := decidableStays (session.step step).2 level steps
      inferInstanceAs (Decidable
        (level < session.cursors.length ∧ (session.step step).2.Stays level steps))

theorem Stays.start {session : ReadSession} {level : Nat} {steps : List ReadStep}
    (stays : session.Stays level steps) : level < session.cursors.length := by
  cases steps with
  | nil => exact stays
  | cons step steps => exact stays.1

/-- Where the cursor on top moves forward, the ones below it stay. -/
theorem exists_reaches_of_top {top next cursor : Cursor} {below : List Cursor} {level : Nat}
    (forward : top.Reaches next) (here : (cursors ⟨top, below⟩)[level]? = some cursor) :
    ∃ later, (cursors ⟨next, below⟩)[level]? = some later ∧ cursor.Reaches later := by
  have inside := (List.getElem?_eq_some_iff.mp here).1
  rw [length_cursors] at inside
  rcases Nat.lt_succ_iff_lt_or_eq.mp inside with lower | rfl
  · rw [cursors, List.getElem?_append_left (by simpa using lower)] at here ⊢
    exact ⟨cursor, here, .refl cursor⟩
  · obtain rfl : top = cursor := Option.some.inj ((getElem?_cursors_top _).symm.trans here)
    exact ⟨next, getElem?_cursors_top ⟨next, below⟩, forward⟩

/-- A step moves each cursor forward that it does not leave. -/
theorem Moves.exists_reaches {session next : ReadSession} (moves : Moves session next)
    {level : Nat} {cursor : Cursor} (here : session.cursors[level]? = some cursor)
    (stays : level < next.cursors.length) :
    ∃ later, next.cursors[level]? = some later ∧ cursor.Reaches later := by
  cases moves with
  | forward reaches => exact exists_reaches_of_top reaches here
  | enter _ passes =>
      obtain ⟨later, found, reaches⟩ := exists_reaches_of_top ⟨_, passes⟩ here
      have inside := (List.getElem?_eq_some_iff.mp found).1
      rw [cursors_mk_cons, List.getElem?_append_left inside]
      exact ⟨later, found, reaches⟩
  | leave =>
      rw [cursors_mk_cons, List.getElem?_append_left stays] at here
      exact ⟨cursor, here, .refl cursor⟩

/-- Steps move each cursor forward that they do not leave. -/
theorem Stays.exists_reaches {session : ReadSession} {level : Nat} {steps : List ReadStep}
    (stays : session.Stays level steps) {cursor : Cursor}
    (here : session.cursors[level]? = some cursor) :
    ∃ later, (session.after steps).cursors[level]? = some later ∧ cursor.Reaches later := by
  induction steps generalizing session cursor with
  | nil => exact ⟨cursor, here, .refl cursor⟩
  | cons step steps ih =>
      obtain ⟨next, found, reaches⟩ := (moves_step session step).exists_reaches here stays.2.start
      obtain ⟨later, foundLater, reachesLater⟩ := ih stays.2 found
      rw [after_cons]
      exact ⟨later, foundLater, reaches.trans reachesLater⟩

/-! ## What steps find -/

theorem exists_of_act_eq_ok {α : Type} {session : ReadSession} {action : Read α}
    {result : α → ReadResult} {found : ReadResult}
    (step : (session.act action result).1 = .ok found) :
    ∃ value top, action session.top = .ok value top ∧ result value = found ∧
      (session.act action result).2 = { session with top } := by
  rw [act] at step ⊢
  cases read : action session.top with
  | ok value top =>
      rw [read] at step
      exact ⟨value, top, rfl, Except.ok.inj step, rfl⟩
  | error fault top =>
      rw [read] at step
      cases step

/-- A varint and a tag take one to ten bytes each. -/
theorem position_of_step {session : ReadSession} {step : ReadStep} (word : step ∈ [.varint, .tag])
    {found : ReadResult} (read : (session.step step).1 = .ok found) :
    session.top.position < (session.step step).2.top.position ∧
      (session.step step).2.top.position ≤ session.top.position + 10 := by
  rcases List.mem_pair.mp word with rfl | rfl
  · obtain ⟨_, top, read, _, after_eq⟩ := exists_of_act_eq_ok read
    rw [ReadSession.step, after_eq]
    exact Read.position_of_varint read
  · obtain ⟨_, top, read, _, after_eq⟩ := exists_of_act_eq_ok read
    rw [ReadSession.step, after_eq]
    exact Read.position_of_tag read

/-- What a step finds in the buffer stands ahead of the cursor. -/
theorem infix_of_step {session : ReadSession} {step : ReadStep} {found : ReadResult}
    {data : List UInt8} (read : (session.step step).1 = .ok found)
    (holds : found.data? = some data) : data <:+: session.top.rest := by
  cases step with
  | slice =>
      obtain ⟨_, _, acted, rfl, _⟩ := exists_of_act_eq_ok read
      cases holds
      exact Read.infix_of_slice acted
  | text =>
      obtain ⟨_, _, acted, rfl, _⟩ := exists_of_act_eq_ok read
      cases holds
      exact Read.infix_of_text acted
  | skip number wire =>
      obtain ⟨_, _, acted, rfl, _⟩ := exists_of_act_eq_ok read
      cases holds
      exact Read.infix_of_rawField acted
  | field =>
      obtain ⟨_, _, acted, rfl, _⟩ := exists_of_act_eq_ok read
      cases holds
      exact Read.infix_of_fieldEntry acted
  | rest =>
      cases read
      cases holds
      exact List.infix_rfl
  | enter =>
      rw [ReadSession.step, enter] at read
      split at read
      · cases read
        cases holds
      · cases read
  | leave =>
      rcases session with ⟨top, below⟩
      cases below with
      | nil =>
          cases read
          cases holds
      | cons outer below =>
          cases read
          cases holds
  | _ =>
      obtain ⟨_, _, _, rfl, _⟩ := exists_of_act_eq_ok read
      cases holds

/-- Bytes are found behind a length if there are as many as it says, whatever it says.  Where there
are fewer, the length stays read. -/
theorem step_slice_of_varint {session : ReadSession} {word : UInt64} {next : Cursor}
    (read : Read.varint session.top = .ok word next) :
    session.step .slice = if word.toNat ≤ next.remaining then
      (.ok (.bytes (next.rest.take word.toNat)), { session with top :=
        { next with rest := next.rest.drop word.toNat, position := next.position + word.toNat } })
    else (.error (.unexpectedEnd next.position), { session with top := next }) := by
  rw [ReadSession.step, act, Read.slice_of_varint read]
  by_cases enough : word.toNat ≤ next.remaining
  · simp only [if_pos enough]
  · simp only [if_neg enough]

/-! ## Loops -/

/-- Rounds of a loop over the fields of the buffer on top.  Each round begins with a tag while any
byte is left, and takes any steps that do not leave the buffer and end in it. -/
inductive Rounds : Nat → ReadSession → ReadSession → Prop
  | none {session : ReadSession} : Rounds 0 session session
  | round {count : Nat} {session last : ReadSession} {key : ReadResult} {steps : List ReadStep} :
      session.top.hasMore = true → (session.step .tag).1 = .ok key →
      (session.step .tag).2.Stays session.below.length steps →
      ((session.step .tag).2.after steps).below.length = session.below.length →
      Rounds count ((session.step .tag).2.after steps) last → Rounds (count + 1) session last

/-- Each round takes at least one byte. -/
theorem Rounds.count_add_remaining_le {count : Nat} {session last : ReadSession}
    (rounds : Rounds count session last) :
    count + last.top.remaining ≤ session.top.remaining := by
  induction rounds with
  | none => exact Nat.le_of_eq (Nat.zero_add _)
  | @round count session last key steps _ tagged stays back _ ih =>
      obtain ⟨_, top, read, _, after_eq⟩ := exists_of_act_eq_ok tagged
      change (session.step .tag).2 = _ at after_eq
      rw [after_eq] at stays back ih
      have onTop := getElem?_cursors_top (({ session with top } : ReadSession).after steps)
      rw [back] at onTop
      obtain ⟨later, found, reaches⟩ :=
        stays.exists_reaches (getElem?_cursors_top { session with top })
      -- The cursor that the tag moved is the one on top again, further on.
      obtain rfl : _ = later := Option.some.inj (onTop.symm.trans found)
      have smaller := Read.remaining_lt_of_tag read
      have sum_eq := reaches.position_add_remaining
      have onward := reaches.position_le
      simp only at sum_eq onward
      omega

end ReadSession

theorem fieldEntriesFrom_of_remaining_eq_zero {admits : UInt32 → WireType → Bool} {fuel : Nat}
    {cursor : Cursor} (empty : cursor.remaining = 0) :
    fieldEntriesFrom admits fuel cursor = [] := by
  have nothing : cursor.rest = [] := List.length_eq_zero_iff.mp empty
  cases fuel with
  | zero => rfl
  | succ fuel => rw [fieldEntriesFrom, if_pos (by simp [nothing])]

/-- The fields of a buffer are the same with more fuel than there are bytes. -/
theorem fieldEntriesFrom_congr {admits : UInt32 → WireType → Bool} {fuel more : Nat}
    {cursor : Cursor} (enough : cursor.remaining ≤ fuel) (enoughMore : cursor.remaining ≤ more) :
    fieldEntriesFrom admits fuel cursor = fieldEntriesFrom admits more cursor := by
  induction fuel generalizing more cursor with
  | zero =>
      have empty : cursor.remaining = 0 := Nat.le_zero.mp enough
      rw [fieldEntriesFrom_of_remaining_eq_zero empty,
        fieldEntriesFrom_of_remaining_eq_zero empty]
  | succ fuel ih =>
      cases more with
      | zero =>
          have empty : cursor.remaining = 0 := Nat.le_zero.mp enoughMore
          rw [fieldEntriesFrom_of_remaining_eq_zero empty,
            fieldEntriesFrom_of_remaining_eq_zero empty]
      | succ more =>
          rw [fieldEntriesFrom, fieldEntriesFrom]
          cases read : Read.fieldEntry admits cursor with
          | error fault after => rfl
          | ok entry next =>
              have smaller := Read.remaining_lt_of_fieldEntry read
              simp only [@ih more next (by omega) (by omega)]

/-- The fields of a buffer are read in a loop that ends with the buffer or with a fault, never for
want of fuel. -/
theorem fieldEntriesFrom_eq {admits : UInt32 → WireType → Bool} {fuel : Nat} {cursor : Cursor}
    (enough : cursor.remaining ≤ fuel) :
    fieldEntriesFrom admits fuel cursor = if cursor.hasMore then
        match Read.fieldEntry admits cursor with
        | .ok entry next => .ok entry :: fieldEntriesFrom admits fuel next
        | .error fault _ => [.error fault]
      else [] := by
  have once : fieldEntriesFrom admits fuel cursor = fieldEntriesFrom admits (fuel + 1) cursor :=
    fieldEntriesFrom_congr enough (Nat.le_succ_of_le enough)
  rw [once, fieldEntriesFrom, Cursor.hasMore]
  cases cursor.rest.isEmpty <;> rfl

/-- Whatever steps lead to a session, failed ones included, each of its cursors stands in its
buffer, and none is deeper than the limit.  Further steps move a cursor forward in the same buffer
until they leave it.  A varint and a tag take one to ten bytes each.  Bytes that a step finds stand
ahead of the cursor; behind a length they are found exactly if there are as many as it says, and
otherwise the length stays read.  A loop that begins each round with a tag ends after at most as
many rounds as there are bytes, and so does the loop that decoders run. -/
theorem ReadSession.cursors_within_and_forward (bytes : List UInt8) (steps : List ReadStep) :
    let session := (ofBytes bytes).after steps
    (∃ buffers, Stacked bytes session buffers ∧
      List.Forall₂ (fun cursor buffer => cursor.position ≤ buffer.length ∧
          cursor.remaining = buffer.length - cursor.position ∧
          (cursor.hasMore = true ↔ 0 < cursor.remaining) ∧ cursor.depth ≤ 100)
        (session.top :: session.below) buffers) ∧
    (∀ level further cursor, session.Stays level further →
      session.cursors[level]? = some cursor →
      ∃ later, (session.after further).cursors[level]? = some later ∧
        cursor.position ≤ later.position ∧ later.depth = cursor.depth ∧
        ∀ buffer, cursor.Within buffer → later.Within buffer) ∧
    (∀ step ∈ [.varint, .tag], ∀ found, (session.step step).1 = .ok found →
      session.top.position < (session.step step).2.top.position ∧
        (session.step step).2.top.position ≤ session.top.position + 10) ∧
    (∀ step found data, (session.step step).1 = .ok found → found.data? = some data →
      data <:+: session.top.rest) ∧
    (∀ word next, Read.varint session.top = .ok word next →
      session.step .slice = if word.toNat ≤ next.remaining then
        (.ok (.bytes (next.rest.take word.toNat)), { session with top :=
          { next with rest := next.rest.drop word.toNat, position := next.position + word.toNat } })
      else (.error (.unexpectedEnd next.position), { session with top := next })) ∧
    (∀ count last, Rounds count session last →
      count + last.top.remaining ≤ session.top.remaining) ∧
    ∀ admits fuel, session.top.remaining ≤ fuel →
      fieldEntriesFrom admits fuel session.top = if session.top.hasMore then
          match Read.fieldEntry admits session.top with
          | .ok entry next => .ok entry :: fieldEntriesFrom admits fuel next
          | .error fault _ => [.error fault]
        else [] := by
  intro session
  refine ⟨?_, ?_, fun _ word _ => position_of_step word, fun _ _ _ => infix_of_step,
    fun _ _ => step_slice_of_varint, fun _ _ => Rounds.count_add_remaining_le,
    fun _ _ => fieldEntriesFrom_eq⟩
  · obtain ⟨buffers, stacked⟩ := (Stacked.ofBytes bytes).after steps
    refine ⟨buffers, stacked, stacked.forall₂.imp ?_⟩
    rintro cursor buffer ⟨within, shallow⟩
    exact ⟨within.position_le, within.remaining_eq, Cursor.hasMore_iff, shallow⟩
  · intro level further cursor stays here
    obtain ⟨later, found, reaches⟩ := stays.exists_reaches here
    exact ⟨later, found, reaches.position_le, reaches.depth_eq,
      fun _ within => within.of_reaches reaches⟩

/-- A message with a length that is far too large: the length stays read, and the loop goes on
behind it. -/
theorem ReadSession.cursors_within_and_forward_sample :
    let bytes : List UInt8 :=
      [0x0A, 12, 0x12, 0xFF, 0xFF, 0xFF, 0xFF, 0xFF, 0xFF, 0xFF, 0xFF, 0xFF, 1, 7]
    let session := (ofBytes bytes).after [.tag, .enter]
    let behindTag : ReadSession := ⟨⟨bytes.drop 3, 1, 1⟩, [⟨[], 14, 0⟩]⟩
    let last : ReadSession := ⟨⟨[], 12, 1⟩, [⟨[], 14, 0⟩]⟩
    (∃ buffers, Stacked bytes session buffers) ∧
    session.step .tag = (.ok (.tag 2 .len), behindTag) ∧
    behindTag.step .slice = (.error (.unexpectedEnd 11), ⟨⟨[7], 11, 1⟩, [⟨[], 14, 0⟩]⟩) ∧
    (∃ later, last.cursors[0]? = some later ∧ 14 ≤ later.position) ∧
    Rounds 1 session last ∧ 1 + last.top.remaining ≤ session.top.remaining := by
  intro bytes session behindTag last
  obtain ⟨⟨buffers, stacked, _⟩, forward, _, _, _, loop, _⟩ :=
    cursors_within_and_forward bytes [.tag, .enter]
  obtain ⟨_, _, _, _, slice, _⟩ := cursors_within_and_forward bytes [.tag, .enter, .tag]
  have oneRound : Rounds 1 session last :=
    .round rfl rfl (by decide : behindTag.Stays 1 [.slice, .varint]) rfl .none
  obtain ⟨later, found, onward, _⟩ :=
    forward 0 [.tag, .slice, .varint] ⟨[], 14, 0⟩ (by decide) rfl
  have tooLong := slice 18446744073709551615 ⟨[7], 11, 1⟩ rfl
  rw [if_neg (by decide)] at tooLong
  exact ⟨⟨buffers, stacked⟩, rfl, tooLong, ⟨later, found, onward⟩, oneRound, loop 1 last oneRound⟩

end KotlinMetadata.Wire
