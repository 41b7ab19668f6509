/-
  The payload of a JSON-RPC query (`types/json_rpc_query_builder.go`).

  The payload is put together as text, and the constructors of the parameters only reject
  double quotes.

  * `JsonRpcQueryBuilder.text`: the payload; `GivenParam`: what the constructors are given;
  * `decode_text`: what the payload decodes to;
  * `decodesBack_iff`: it decodes to the method, the id and the given values iff no given string
    has a backslash or a control character.
-/
import Mathlib.Data.List.Forall2
import RollappExplorer.Go.Error
import RollappExplorer.Json.Pieces

namespace RollappExplorer

open Go Json

/-! ## Parameters -/

inductive JsonRpcQueryParam where
  | integer (value : String)
  | string (value : String)
  | stringArray (value : List String)

def newJsonRpcInt64QueryParam (num : Int64) : JsonRpcQueryParam := .integer (toString num.toInt)

def newJsonRpcIntQueryParam (num : Int64) : JsonRpcQueryParam := .integer (toString num.toInt)

/-- The check of a string, of a parameter or of an array. -/
def prohibitDoubleQuote (str : String) : Except Error Unit :=
  failIf ('"' ∈ str.toList) s!"prohibited double quote on string param: {str}"

def newJsonRpcStringQueryParam (str : String) : Except Error JsonRpcQueryParam := do
  prohibitDoubleQuote str
  return .string str

def newJsonRpcStringArrayQueryParam (strArr : List String) : Except Error JsonRpcQueryParam := do
  strArr.forM prohibitDoubleQuote
  return .stringArray strArr

def quoted (str : String) : String := "\"" ++ str ++ "\""

/-- `String()` of a parameter. -/
def JsonRpcQueryParam.text : JsonRpcQueryParam → String
  | .integer value => value
  | .string value => quoted value
  | .stringArray value => "[" ++ ",".intercalate (value.map quoted) ++ "]"

/-! ## The payload -/

/-- `nextRequestId`: the request id after `curReqId`, which is never zero. -/
def nextRequestId (curReqId : UInt64) : UInt64 :=
  let curReqId := curReqId + 1
  if curReqId = 0 then curReqId + 1 else curReqId

structure JsonRpcQueryBuilder where
  requestId : UInt64
  method : String
  queryParams : List JsonRpcQueryParam

def newJsonRpcQueryBuilder (curReqId : UInt64) (method : String)
    (params : List JsonRpcQueryParam) : JsonRpcQueryBuilder :=
  ⟨nextRequestId curReqId, method, params⟩

/-- `String()` of the builder. -/
def JsonRpcQueryBuilder.text (j : JsonRpcQueryBuilder) : String :=
  "\x7b\n    \"method\": \"" ++ j.method ++ "\",\n    \"params\": [" ++
    ",".intercalate (j.queryParams.map (·.text)) ++ "],\n    \"id\": " ++
    toString (j.requestId.toNat : ℤ) ++ ",\n    \"jsonrpc\": \"2.0\"\n\x7d"

/-! ## The values that are given -/

/-- A constructor with its argument. -/
inductive GivenParam where
  | int64 (num : Int64)
  | int (num : Int64)
  | string (str : String)
  | stringArray (strArr : List String)

def GivenParam.param : GivenParam → Except Error JsonRpcQueryParam
  | .int64 num => .ok (newJsonRpcInt64QueryParam num)
  | .int num => .ok (newJsonRpcIntQueryParam num)
  | .string str => newJsonRpcStringQueryParam str
  | .stringArray strArr => newJsonRpcStringArrayQueryParam strArr

/-- The given value. -/
def GivenParam.value : GivenParam → Value
  | .int64 num | .int num => .num num.toInt
  | .string str => .str str
  | .stringArray strArr => .arr (strArr.map .str)

/-- The given strings. -/
def GivenParam.strings : GivenParam → List String
  | .int64 _ | .int _ => []
  | .string str => [str]
  | .stringArray strArr => strArr

/-- The payload decodes to an object whose members are the method, the request id and the given
    values. -/
def JsonRpcQueryBuilder.DecodesBack (j : JsonRpcQueryBuilder) (given : List GivenParam) : Prop :=
  ∃ members, decode j.text = some (.obj members) ∧ (members.map Prod.fst).Nodup ∧
    ("method", .str j.method) ∈ members ∧ ("id", .num j.requestId.toNat) ∈ members ∧
    ("params", .arr (given.map (·.value))) ∈ members

/-- The text has neither double quotes nor backslashes nor control characters, as a text of
    letters, digits and `_`. -/
def PlainText (s : String) : Prop := ∀ c ∈ s.toList, ¬ c < ' ' ∧ c ≠ '"' ∧ c ≠ '\\'

/-- The text has neither backslashes nor control characters. -/
def Unescaped (s : String) : Prop := ∀ c ∈ s.toList, ¬ c < ' ' ∧ c ≠ '\\'

/-! ## The parameters are read -/

/-- The value a JSON parser reads for a parameter, if it finds its end. -/
def GivenParam.decoded : GivenParam → Option Value
  | .int64 num | .int num => some (.num num.toInt)
  | .string str => (unescape str).map .str
  | .stringArray strArr => ((strArr.map fun str => (unescape str).map .str).mapM id).map .arr

theorem prohibitDoubleQuote_ok_iff {str : String} {u : Unit} :
    prohibitDoubleQuote str = .ok u ↔ '"' ∉ str.toList := failIf_ok_iff

theorem reads_quoted {str : String} (h : '"' ∉ str.toList) :
    Reads (quoted str).toList ((unescape str).map .str) := by
  have hlist : (quoted str).toList = '"' :: str.toList ++ ['"'] := by
    rw [quoted, String.toList_append, String.toList_append]
    rfl
  rw [hlist]
  exact .quoted h

/-- What a constructor has checked. -/
theorem GivenParam.strings_of_param {g : GivenParam} {p : JsonRpcQueryParam}
    (h : g.param = .ok p) : ∀ s ∈ g.strings, '"' ∉ s.toList := by
  cases g with
  | int64 num | int num => exact fun _ hs => nomatch hs
  | string str =>
    obtain ⟨hstr, -⟩ := bind_unit_ok_iff.1 h
    exact fun s hs => List.mem_singleton.1 hs ▸ prohibitDoubleQuote_ok_iff.1 hstr
  | stringArray strArr =>
    obtain ⟨hall, -⟩ := bind_unit_ok_iff.1 h
    exact fun s hs => prohibitDoubleQuote_ok_iff.1 (forM_ok_iff.1 hall s hs)

theorem GivenParam.reads_param {g : GivenParam} {p : JsonRpcQueryParam} (h : g.param = .ok p) :
    Reads p.text.toList g.decoded := by
  have hstrings := GivenParam.strings_of_param h
  cases g with
  | int64 num | int num =>
    obtain rfl := Except.ok.inj h
    exact .integer num.toInt
  | string str =>
    obtain ⟨-, hp⟩ := bind_unit_ok_iff.1 h
    obtain rfl := Except.ok.inj hp
    exact reads_quoted (hstrings str List.mem_cons_self)
  | stringArray strArr =>
    obtain ⟨-, hp⟩ := bind_unit_ok_iff.1 h
    obtain rfl := Except.ok.inj hp
    have hitems : List.Forall₂ Reads ((strArr.map quoted).map String.toList)
        (strArr.map fun str => (unescape str).map .str) := by
      rw [List.map_map, List.forall₂_map_left_iff, List.forall₂_map_right_iff]
      exact List.forall₂_same.2 fun str hm => reads_quoted (hstrings str hm)
    have hlist : (JsonRpcQueryParam.stringArray strArr).text.toList =
        '[' :: ([','].intercalate ((strArr.map quoted).map String.toList) ++ [']']) := by
      rw [JsonRpcQueryParam.text, String.toList_append, String.toList_append,
        String.toList_intercalate]
      rfl
    rw [hlist]
    exact .array hitems

/-! ## The payload is read -/

/-- The object of a request. -/
def requestObject (requestId : UInt64) (method : String) (params : List Value) : Value :=
  .obj [("method", .str method), ("params", .arr params), ("id", .num requestId.toNat),
    ("jsonrpc", .str "2.0")]

/-- The payload up to the parameters, which come next. -/
def payloadHead (method : String) : List Char :=
  "\x7b\n    \"method\": \"".toList ++ (method.toList ++ "\",\n    \"params\": ".toList)

/-- The payload behind the comma after the parameters. -/
def payloadTail (requestId : UInt64) : List Char :=
  "\n    \"id\": ".toList ++ ((toString (requestId.toNat : ℤ)).toList ++ [','] ++
    "\n    \"jsonrpc\": \"2.0\"\n\x7d".toList)

theorem toList_text (j : JsonRpcQueryBuilder) : j.text.toList = payloadHead j.method ++
    (('[' :: ([','].intercalate (j.queryParams.map fun p => p.text.toList) ++ [']'])) ++ [','] ++
      payloadTail j.requestId) := by
  have hparams : "\",\n    \"params\": [".toList = "\",\n    \"params\": ".toList ++ ['['] := by
    decide +kernel
  have hid : "],\n    \"id\": ".toList = [']', ','] ++ "\n    \"id\": ".toList := by
    decide +kernel
  have htail : ",\n    \"jsonrpc\": \"2.0\"\n\x7d".toList =
      [','] ++ "\n    \"jsonrpc\": \"2.0\"\n\x7d".toList := by
    decide +kernel
  have hcomma : ",".toList = [','] := by decide
  have hmap : String.toList ∘ JsonRpcQueryParam.text = fun p => p.text.toList := rfl
  unfold JsonRpcQueryBuilder.text payloadHead payloadTail
  simp only [String.toList_append, String.toList_intercalate, List.map_map, hparams, hid, htail,
    hcomma, hmap, List.append_assoc, List.cons_append, List.nil_append]

theorem run_payloadHead {method : String} (h : PlainText method) :
    run .blank (payloadHead method) =
      ([.punct '\x7b', .string "method", .punct ':', .string method, .punct ',', .string "params",
        .punct ':'], .blank) := by
  have hbegin : run .blank "\x7b\n    \"method\": \"".toList =
      ([.punct '\x7b', .string "method", .punct ':'], .literal []) := by decide +kernel
  have hquote : "\",\n    \"params\": ".toList = '"' :: ",\n    \"params\": ".toList := by
    decide +kernel
  have hclose : step (.literal (method.toList.map Char.toNat)) '"' =
      ([.string (String.ofList (decodeUnits (method.toList.map Char.toNat)))], .blank) := rfl
  have hend : run .blank ",\n    \"params\": ".toList =
      ([.punct ',', .string "params", .punct ':'], .blank) := by decide +kernel
  unfold payloadHead
  rw [run_append_of hbegin, run_append_of (run_literal_plain h), List.nil_append, hquote,
    run_cons, List.nil_append, hclose, hend, decodeUnits_toNat, String.ofList_toList]
  rfl

theorem run_payloadTail (requestId : UInt64) : run .blank (payloadTail requestId) =
    ([.string "id", .punct ':', .number requestId.toNat, .punct ',', .string "jsonrpc",
      .punct ':', .string "2.0", .punct '\x7d'], .blank) := by
  have hbegin : run .blank "\n    \"id\": ".toList = ([.string "id", .punct ':'], .blank) := by
    decide +kernel
  have hend : run .blank "\n    \"jsonrpc\": \"2.0\"\n\x7d".toList =
      ([.string "jsonrpc", .punct ':', .string "2.0", .punct '\x7d'], .blank) := by decide +kernel
  have hid := (Reads.integer requestId.toNat).value _ rfl ',' (.inl rfl)
  unfold payloadTail
  rw [run_append_of hbegin, run_append_of hid, hend, Value.tokens]
  rfl

/-- The payload of a request whose parameters end in the middle of a string has a line break in a
    string. -/
theorem lex_eq_none_of_misplaced {j : JsonRpcQueryBuilder} {l : List Char}
    (hl : j.text.toList = l ++ payloadTail j.requestId) (h : (run .blank l).2.Misplaced) :
    lex j.text = none := by
  have hfailed : (run .blank j.text.toList).2 = .failed := by
    have hbreak : (step (run .blank l).2 '\n').2 = .failed := by
      cases hmode : (run .blank l).2 with
      | blank | word | escape | unicode => exact (hmode ▸ h).elim
      | failed | literal => rfl
    obtain ⟨tail, htail⟩ : ∃ tail, payloadTail j.requestId = '\n' :: tail := ⟨_, rfl⟩
    rw [hl, mode_append, htail, run_cons, hbreak]
    exact mode_failed tail
  unfold lex
  rw [hfailed]
  rfl

theorem tokens_requestObject (requestId : UInt64) (method : String) (values : List Value) :
    (requestObject requestId method values).tokens =
      [.punct '\x7b', .string "method", .punct ':', .string method, .punct ',', .string "params",
        .punct ':'] ++ ((Value.arr values).tokens ++ [.punct ','] ++
      [.string "id", .punct ':', .number requestId.toNat, .punct ',', .string "jsonrpc",
        .punct ':', .string "2.0", .punct '\x7d']) := by
  simp only [requestObject, Value.tokens, moreMembers, List.append_assoc, List.cons_append,
    List.nil_append]

/-- **What the payload decodes to.** -/
theorem decode_text {method : String} {given : List GivenParam}
    {params : List JsonRpcQueryParam} (requestId : UInt64) (hmethod : PlainText method)
    (hparams : given.mapM GivenParam.param = .ok params) :
    decode (JsonRpcQueryBuilder.mk requestId method params).text =
      ((given.map GivenParam.decoded).mapM id).map (requestObject requestId method) := by
  have hreads : List.Forall₂ Reads (params.map fun p => p.text.toList)
      (given.map GivenParam.decoded) := by
    have hgiven := mapM_ok_iff.1 hparams
    rw [← List.forall₂_eq_eq_eq, List.forall₂_map_left_iff, List.forall₂_map_right_iff] at hgiven
    rw [List.forall₂_map_left_iff, List.forall₂_map_right_iff]
    exact hgiven.flip.imp fun _ _ h => GivenParam.reads_param h
  have hpiece := Reads.array hreads
  have htext := toList_text ⟨requestId, method, params⟩
  have hhead := run_payloadHead hmethod
  have hcomma : IsSeparator ',' := .inl rfl
  cases hvalues : (given.map GivenParam.decoded).mapM id with
  | none =>
    have hmisplaced := hpiece.misplaces (Option.map_eq_none_iff.2 hvalues) ',' hcomma
    have hlex : lex (JsonRpcQueryBuilder.mk requestId method params).text = none := by
      refine lex_eq_none_of_misplaced (htext.trans (List.append_assoc _ _ _).symm) ?_
      rw [mode_append, hhead]
      exact hmisplaced
    unfold decode
    rw [hlex]
    rfl
  | some values =>
    have hvalue := hpiece.value (.arr values) (by rw [hvalues]; rfl) ',' hcomma
    have hlex : lex (JsonRpcQueryBuilder.mk requestId method params).text =
        some (requestObject requestId method values).tokens := by
      unfold lex
      rw [htext, run_append_of hhead, run_append_of hvalue, run_payloadTail, tokens_requestObject]
      rfl
    unfold decode
    rw [hlex, Option.bind_some, parse_tokens]
    rfl

theorem decoded_eq_value_iff {g : GivenParam} {p : JsonRpcQueryParam} (h : g.param = .ok p) :
    g.decoded = some g.value ↔ ∀ s ∈ g.strings, Unescaped s := by
  have hstr : ∀ s ∈ g.strings,
      ((unescape s).map Value.str = some (.str s) ↔ Unescaped s) := by
    intro s hs
    rw [Unescaped, ← unescape_eq_self_iff (GivenParam.strings_of_param h s hs)]
    constructor
    · intro hm
      obtain ⟨t, ht, he⟩ := Option.map_eq_some_iff.1 hm
      rw [ht, Value.str.inj he]
    · intro ht
      rw [ht]
      rfl
  cases g with
  | int64 num | int num => exact ⟨fun _ => nofun, fun _ => rfl⟩
  | string str =>
    rw [GivenParam.strings, List.forall_mem_singleton]
    exact hstr str List.mem_cons_self
  | stringArray strArr =>
    rw [GivenParam.decoded, GivenParam.value, Option.map_eq_some_iff]
    simp only [Value.arr.injEq, exists_eq_right, mapM_id_eq_some_iff, List.map_map,
      List.map_inj_left]
    exact forall₂_congr hstr

theorem members_nodup (requestId : UInt64) (method : String) (values : List Value) :
    ([("method", .str method), ("params", .arr values), ("id", .num requestId.toNat),
      ("jsonrpc", .str "2.0")].map (Prod.fst : String × Value → String)).Nodup := by
  show ["method", "params", "id", "jsonrpc"].Nodup
  decide

/-- The payload decodes back iff each parameter does. -/
theorem decodesBack_iff_decoded {method : String} {given : List GivenParam}
    {params : List JsonRpcQueryParam} (requestId : UInt64) (hmethod : PlainText method)
    (hparams : given.mapM GivenParam.param = .ok params) :
    (JsonRpcQueryBuilder.mk requestId method params).DecodesBack given ↔
      ∀ g ∈ given, g.decoded = some g.value := by
  have hvalues : (∀ g ∈ given, g.decoded = some g.value) ↔
      (given.map GivenParam.decoded).mapM id = some (given.map GivenParam.value) := by
    rw [mapM_id_eq_some_iff, List.map_map, List.map_inj_left]
    rfl
  rw [hvalues, JsonRpcQueryBuilder.DecodesBack, decode_text requestId hmethod hparams]
  constructor
  · rintro ⟨members, hdecode, -, -, -, hmem⟩
    obtain ⟨values, hvalues, he⟩ := Option.map_eq_some_iff.1 hdecode
    obtain rfl := Value.obj.inj he
    have harr : Value.arr (given.map GivenParam.value) = .arr values := by
      simpa using hmem
    rw [hvalues, Value.arr.inj harr]
  · intro hvalues
    rw [hvalues]
    exact ⟨_, rfl, members_nodup _ _ _, List.mem_cons_self, by simp, by simp⟩

/-- **The payload decodes back** to the method, the request id and the given values iff no given
    string has a backslash or a control character.  The strings are valid UTF-8, as all strings of
    the program are. -/
theorem decodesBack_iff {method : String} {given : List GivenParam}
    {params : List JsonRpcQueryParam} (requestId : UInt64) (hmethod : PlainText method)
    (hparams : given.mapM GivenParam.param = .ok params) :
    (JsonRpcQueryBuilder.mk requestId method params).DecodesBack given ↔
      ∀ g ∈ given, ∀ s ∈ g.strings, Unescaped s := by
  rw [decodesBack_iff_decoded requestId hmethod hparams]
  refine forall₂_congr fun g hg => ?_
  obtain ⟨p, -, hp⟩ := exists_of_mapM_ok hparams hg
  exact decoded_eq_value_iff hp

theorem decodesBack_mixed : (newJsonRpcQueryBuilder 6 "be_getBlock"
    [.integer "-5", .string "rol1a", .stringArray ["x", "é/"]]).DecodesBack
      [.int64 (-5), .string "rol1a", .stringArray ["x", "é/"]] :=
  (decodesBack_iff 7 (by simp [PlainText]) rfl).2 (by simp [GivenParam.strings, Unescaped])

/-- A backslash passes the constructor and escapes the quote behind it. -/
theorem not_decodesBack : newJsonRpcStringQueryParam "\\" = .ok (.string "\\") ∧
    ¬ (newJsonRpcQueryBuilder 6 "be_getBlock" [.string "\\"]).DecodesBack [.string "\\"] := by
  refine ⟨rfl, ?_⟩
  rintro ⟨members, hdecode, -⟩
  have hlex : lex (newJsonRpcQueryBuilder 6 "be_getBlock" [.string "\\"]).text = none := by
    decide +kernel
  unfold decode at hdecode
  rw [hlex] at hdecode
  cases hdecode

end RollappExplorer
