/-
  The value of a JSON text.

  The parser is a machine over the tokens with a stack of the arrays and objects that are open.

  * `Value.tokens`: the tokens a value is written with;
  * `parse`: the value of tokens; `parse_tokens`: of those of a value;
  * `decode`: the value of a text.
-/
import RollappExplorer.Json.Lexer

namespace Json

inductive Value where
  | null
  | bool (b : Bool)
  | num (q : ℚ)
  | str (s : String)
  | arr (items : List Value)
  | obj (members : List (String × Value))

/-! ## The tokens of a value -/

mutual

def Value.tokens : Value → List Token
  | .null => [.null]
  | .bool b => [.bool b]
  | .num q => [.number q]
  | .str s => [.string s]
  | .arr [] => [.punct '[', .punct ']']
  | .arr (v :: items) => .punct '[' :: (v.tokens ++ (moreItems items ++ [.punct ']']))
  | .obj [] => [.punct '{', .punct '}']
  | .obj ((k, v) :: members) =>
    .punct '{' :: .string k :: .punct ':' :: (v.tokens ++ (moreMembers members ++ [.punct '}']))

/-- The further items of an array. -/
def moreItems : List Value → List Token
  | [] => []
  | v :: items => .punct ',' :: (v.tokens ++ moreItems items)

/-- The further members of an object. -/
def moreMembers : List (String × Value) → List Token
  | [] => []
  | (k, v) :: members =>
    .punct ',' :: .string k :: .punct ':' :: (v.tokens ++ moreMembers members)

end

/-! ## The machine -/

/-- An array or an object that is open, with what stands before the value that is read. -/
inductive Frame where
  | arr (items : List Value)
  | obj (members : List (String × Value)) (key : String)

inductive ParseState where
  /-- before a value -/
  | value (stack : List Frame)
  /-- behind the opening bracket of an array -/
  | opened (stack : List Frame)
  /-- before a key, which is missing in an empty object -/
  | key (stack : List Frame) (members : List (String × Value))
  /-- before a colon -/
  | colon (stack : List Frame) (members : List (String × Value)) (key : String)
  /-- behind a value -/
  | after (stack : List Frame) (v : Value)
  | failed

def beginValue (stack : List Frame) : Token → ParseState
  | .null => .after stack .null
  | .bool b => .after stack (.bool b)
  | .number q => .after stack (.num q)
  | .string s => .after stack (.str s)
  | .punct '[' => .opened stack
  | .punct '{' => .key stack []
  | .punct _ => .failed

def ParseState.step : ParseState → Token → ParseState
  | .value stack, token => beginValue stack token
  | .opened stack, .punct ']' => .after stack (.arr [])
  | .opened stack, token => beginValue (.arr [] :: stack) token
  | .key stack [], .punct '}' => .after stack (.obj [])
  | .key stack members, .string k => .colon stack members k
  | .colon stack members k, .punct ':' => .value (.obj members k :: stack)
  | .after (.arr items :: stack) v, .punct ',' => .value (.arr (items ++ [v]) :: stack)
  | .after (.arr items :: stack) v, .punct ']' => .after stack (.arr (items ++ [v]))
  | .after (.obj members k :: stack) v, .punct ',' => .key stack (members ++ [(k, v)])
  | .after (.obj members k :: stack) v, .punct '}' => .after stack (.obj (members ++ [(k, v)]))
  | _, _ => .failed

def ParseState.run (s : ParseState) (tokens : List Token) : ParseState := tokens.foldl step s

/-- The value of tokens. -/
def parse (tokens : List Token) : Option Value :=
  match ParseState.run (.value []) tokens with
  | .after [] v => some v
  | _ => none

/-- The value of a text. -/
def decode (s : String) : Option Value := (lex s).bind parse

/-! ## The tokens of a value are parsed -/

namespace ParseState

variable {stack : List Frame}

theorem run_append (s : ParseState) (tokens tokens' : List Token) :
    s.run (tokens ++ tokens') = (s.run tokens).run tokens' :=
  List.foldl_append

theorem run_cons (s : ParseState) (token : Token) (tokens : List Token) :
    s.run (token :: tokens) = (s.step token).run tokens := rfl

/-- The first item of an array is read like any value. -/
theorem run_opened (v : Value) (tokens : List Token) :
    run (.opened stack) (v.tokens ++ tokens) =
      run (.value (.arr [] :: stack)) (v.tokens ++ tokens) := by
  cases v with
  | null | bool | num | str => rw [Value.tokens]; rfl
  | arr items => cases items <;> rw [Value.tokens] <;> rfl
  | obj members =>
    cases members with
    | nil => rw [Value.tokens]; rfl
    | cons member members => obtain ⟨k, v⟩ := member; rw [Value.tokens]; rfl

mutual

theorem run_tokens (v : Value) (stack : List Frame) :
    run (.value stack) v.tokens = .after stack v := by
  match v with
  | .null | .bool _ | .num _ | .str _ => rw [Value.tokens]; rfl
  | .arr [] => rw [Value.tokens]; rfl
  | .arr (v :: items) =>
    rw [Value.tokens, run_cons]
    show run (.opened stack) _ = _
    rw [run_opened, run_append, run_tokens v]
    exact run_moreItems items [] v stack
  | .obj [] => rw [Value.tokens]; rfl
  | .obj ((k, v) :: members) =>
    rw [Value.tokens, run_cons, run_cons, run_cons]
    show run (.value (.obj [] k :: stack)) _ = _
    rw [run_append, run_tokens v]
    exact run_moreMembers members [] k v stack

theorem run_moreItems (items before : List Value) (v : Value) (stack : List Frame) :
    run (.after (.arr before :: stack) v) (moreItems items ++ [.punct ']']) =
      .after stack (.arr (before ++ v :: items)) := by
  match items with
  | [] => rw [moreItems]; rfl
  | v' :: items =>
    rw [moreItems, List.cons_append, run_cons]
    show run (.value (.arr (before ++ [v]) :: stack)) _ = _
    rw [List.append_assoc, run_append, run_tokens v', run_moreItems items]
    simp

theorem run_moreMembers (members before : List (String × Value)) (k : String) (v : Value)
    (stack : List Frame) :
    run (.after (.obj before k :: stack) v) (moreMembers members ++ [.punct '}']) =
      .after stack (.obj (before ++ (k, v) :: members)) := by
  match members with
  | [] => rw [moreMembers]; rfl
  | (k', v') :: members =>
    rw [moreMembers, List.cons_append, List.cons_append, List.cons_append, run_cons, run_cons,
      run_cons]
    have hkey : step (.after (.obj before k :: stack) v) (.punct ',') =
        .key stack (before ++ [(k, v)]) := rfl
    have hcolon : step (.key stack (before ++ [(k, v)])) (.string k') =
        .colon stack (before ++ [(k, v)]) k' := by
      cases before <;> rfl
    rw [hkey, hcolon]
    show run (.value (.obj (before ++ [(k, v)]) k' :: stack)) _ = _
    rw [List.append_assoc, run_append, run_tokens v', run_moreMembers members]
    simp

end

end ParseState

/-- **The tokens of a value** are parsed to the value. -/
theorem parse_tokens (v : Value) : parse v.tokens = some v := by
  unfold parse
  rw [ParseState.run_tokens]

end Json
