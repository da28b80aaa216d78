import Tempcheck.Library.DecimalText

/-!
# JSON values

The values of JSON and the tokens that spell them.  A literal is `null`, a truth value or a
number, and keeps its text, so no number format is chosen here.

The reader is a machine with a stack.  It takes one token at a time and has no lookahead, so
a frame of the stack is an array or an object that is still open (`State`).  After the tokens
of a value the machine is where it was, with that value (`run_tokens`), so a value is read
from its tokens (`readTokens_tokens`).
-/

namespace Json

open DecimalText (IsDigit)

/-! ## Literals -/

/-- Where a number is, after some of its characters. -/
inductive NumberAt where
  | start
  | minus
  | zero
  | whole
  | point
  | fraction
  | exponent
  | sign
  | power

/-- The next character of a number. -/
def NumberAt.next (c : Char) : NumberAt → Option NumberAt
  | .start =>
      if c = '-' then some .minus else if c = '0' then some .zero
      else if IsDigit c then some .whole else none
  | .minus => if c = '0' then some .zero else if IsDigit c then some .whole else none
  | .zero =>
      if c = '.' then some .point else if c = 'e' ∨ c = 'E' then some .exponent else none
  | .whole =>
      if IsDigit c then some .whole else if c = '.' then some .point
      else if c = 'e' ∨ c = 'E' then some .exponent else none
  | .point => if IsDigit c then some .fraction else none
  | .fraction =>
      if IsDigit c then some .fraction
      else if c = 'e' ∨ c = 'E' then some .exponent else none
  | .exponent =>
      if c = '+' ∨ c = '-' then some .sign else if IsDigit c then some .power else none
  | .sign => if IsDigit c then some .power else none
  | .power => if IsDigit c then some .power else none

/-- The number may end here. -/
def NumberAt.complete : NumberAt → Bool
  | .zero => true
  | .whole => true
  | .fraction => true
  | .power => true
  | _ => false

/-- The rest of a number. -/
def NumberAt.accepts : NumberAt → List Char → Bool
  | at_, [] => at_.complete
  | at_, c :: cs => (at_.next c).any fun at' => at'.accepts cs

/-- The text of a number. -/
def isNumber (cs : List Char) : Bool := NumberAt.start.accepts cs

/-- The text of a literal. -/
def isLiteral (cs : List Char) : Bool :=
  cs = ['n', 'u', 'l', 'l'] || cs = ['t', 'r', 'u', 'e'] || cs = ['f', 'a', 'l', 's', 'e'] ||
    isNumber cs

/-- `null`, a truth value or a number. -/
structure Literal where
  text : List Char
  valid : isLiteral text = true
deriving DecidableEq

example : isLiteral ['-', '0', '.', '2', '5', 'e', '+', '3'] = true := by decide
example : isLiteral ['0', '1'] = false := by decide

/-! ## Values and their tokens -/

/-- A value. -/
inductive Value where
  | literal (l : Literal)
  | string (s : String)
  | array (vs : List Value)
  | object (ms : List (String × Value))

/-- A part of a text that has no parts itself. -/
inductive Token where
  | openArray
  | closeArray
  | openObject
  | closeObject
  | comma
  | colon
  | word (cs : List Char)
  | string (s : String)
deriving DecidableEq

mutual

/-- The tokens of a value. -/
def Value.tokens : Value → List Token
  | .literal l => [.word l.text]
  | .string s => [.string s]
  | .array [] => [.openArray, .closeArray]
  | .array (v :: vs) => .openArray :: (v.tokens ++ (moreItems vs ++ [.closeArray]))
  | .object [] => [.openObject, .closeObject]
  | .object ((name, v) :: ms) =>
      .openObject :: .string name :: .colon :: (v.tokens ++ (moreMembers ms ++ [.closeObject]))

/-- The tokens of the items after the first one. -/
def moreItems : List Value → List Token
  | [] => []
  | v :: vs => .comma :: (v.tokens ++ moreItems vs)

/-- The tokens of the members after the first one. -/
def moreMembers : List (String × Value) → List Token
  | [] => []
  | (name, v) :: ms => .comma :: .string name :: .colon :: (v.tokens ++ moreMembers ms)

end

/-! ## The machine -/

/-- An array or an object that is open, with what it has so far.  A member of an object is
open too. -/
inductive Frame where
  | array (vs : List Value)
  | object (ms : List (String × Value)) (name : String)

/-- What has been read, by what comes next. -/
inductive State where
  /-- A value comes. -/
  | value (fs : List Frame)
  /-- The name of a member comes. -/
  | member (ms : List (String × Value)) (fs : List Frame)
  /-- A colon comes. -/
  | colon (ms : List (String × Value)) (name : String) (fs : List Frame)
  /-- A value is complete. -/
  | done (v : Value) (fs : List Frame)

/-- The first token of a value, or the end of an array without one. -/
def State.start (fs : List Frame) : Token → Option State
  | .word cs => if h : isLiteral cs = true then some (.done (.literal ⟨cs, h⟩) fs) else none
  | .string s => some (.done (.string s) fs)
  | .openArray => some (.value (.array [] :: fs))
  | .openObject => some (.member [] fs)
  | .closeArray =>
      match fs with
      | .array [] :: fs => some (.done (.array []) fs)
      | _ => none
  | _ => none

/-- One token is read. -/
def State.step : State → Token → Option State
  | .value fs, t => State.start fs t
  | .member [] fs, .closeObject => some (.done (.object []) fs)
  | .member ms fs, .string name => some (.colon ms name fs)
  | .colon ms name fs, .colon => some (.value (.object ms name :: fs))
  | .done v (.array vs :: fs), .comma => some (.value (.array (vs ++ [v]) :: fs))
  | .done v (.array vs :: fs), .closeArray => some (.done (.array (vs ++ [v])) fs)
  | .done v (.object ms name :: fs), .comma => some (.member (ms ++ [(name, v)]) fs)
  | .done v (.object ms name :: fs), .closeObject =>
      some (.done (.object (ms ++ [(name, v)])) fs)
  | _, _ => none

/-- Tokens are read one after the other. -/
def State.run : State → List Token → Option State
  | s, [] => some s
  | s, t :: ts => (s.step t).bind fun s' => s'.run ts

/-- The value that some tokens spell. -/
def readTokens (ts : List Token) : Option Value :=
  match (State.value []).run ts with
  | some (.done v []) => some v
  | _ => none

theorem State.run_cons {s u : State} {t : Token} (h : s.step t = some u) (ts : List Token) :
    s.run (t :: ts) = u.run ts := by
  rw [State.run, h, Option.bind_some]

/-! ## A value is read from its tokens -/

mutual

theorem run_tokens : ∀ (v : Value) (fs : List Frame) (ts : List Token),
    (State.value fs).run (v.tokens ++ ts) = (State.done v fs).run ts
  | .literal l, fs, ts => by
      have hstep : (State.value fs).step (.word l.text) = some (.done (.literal l) fs) :=
        dif_pos l.valid
      rw [Value.tokens]
      exact State.run_cons hstep ts
  | .string s, fs, ts => State.run_cons rfl ts
  | .array [], fs, ts => rfl
  | .array (v :: vs), fs, ts => by
      simp only [Value.tokens, List.cons_append, List.append_assoc, List.nil_append]
      rw [State.run_cons (u := .value (.array [] :: fs)) rfl, run_tokens v (.array [] :: fs)]
      exact run_moreItems vs v [] fs ts
  | .object [], fs, ts => rfl
  | .object ((name, v) :: ms), fs, ts => by
      simp only [Value.tokens, List.cons_append, List.append_assoc, List.nil_append]
      rw [State.run_cons (u := .member [] fs) rfl, State.run_cons (u := .colon [] name fs) rfl,
        State.run_cons (u := .value (.object [] name :: fs)) rfl,
        run_tokens v (.object [] name :: fs)]
      exact run_moreMembers ms name v [] fs ts

theorem run_moreItems : ∀ (vs : List Value) (v : Value) (us : List Value) (fs : List Frame)
    (ts : List Token), (State.done v (.array us :: fs)).run (moreItems vs ++ .closeArray :: ts) =
      (State.done (.array (us ++ v :: vs)) fs).run ts
  | [], v, us, fs, ts => rfl
  | w :: vs, v, us, fs, ts => by
      simp only [moreItems, List.cons_append, List.append_assoc]
      rw [State.run_cons (u := .value (.array (us ++ [v]) :: fs)) rfl,
        run_tokens w (.array (us ++ [v]) :: fs), run_moreItems vs w (us ++ [v]) fs ts,
        List.append_assoc, List.singleton_append]

theorem run_moreMembers : ∀ (ms : List (String × Value)) (name : String) (v : Value)
    (us : List (String × Value)) (fs : List Frame) (ts : List Token),
    (State.done v (.object us name :: fs)).run (moreMembers ms ++ .closeObject :: ts) =
      (State.done (.object (us ++ (name, v) :: ms)) fs).run ts
  | [], name, v, us, fs, ts => rfl
  | (name', w) :: ms, name, v, us, fs, ts => by
      simp only [moreMembers, List.cons_append, List.append_assoc]
      have hname : (State.member (us ++ [(name, v)]) fs).step (.string name') =
          some (.colon (us ++ [(name, v)]) name' fs) := by
        cases us <;> rfl
      rw [State.run_cons (u := .member (us ++ [(name, v)]) fs) rfl, State.run_cons hname,
        State.run_cons (u := .value (.object (us ++ [(name, v)]) name' :: fs)) rfl,
        run_tokens w (.object (us ++ [(name, v)]) name' :: fs),
        run_moreMembers ms name' w (us ++ [(name, v)]) fs ts, List.append_assoc,
        List.singleton_append]

end

theorem readTokens_tokens (v : Value) : readTokens v.tokens = some v := by
  have hrun := run_tokens v [] []
  rw [List.append_nil] at hrun
  rw [readTokens, hrun]
  rfl

end Json
