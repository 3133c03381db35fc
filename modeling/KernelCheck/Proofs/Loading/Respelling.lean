import KernelCheck.Document.Load
import KernelCheck.Proofs.Json.Printing
import Mathlib.Logic.Relation

/-!
# Respelled documents

One document can be written in many ways: the members of an object stand in any order, keys
that a node does not know are passed over, and a field that is left out has its default
value.

1. `NodeSort.schema` — the fields of each sort of node, with what their values are made of and
   with their default values.
2. `Respelling` — one step from one way of writing to another one, at any depth.
3. `Record.Agree` — what a step does to a node, field by field.  No reader of a field sees a
   difference.
4. `NodeSort.alike_of_agree` — so no reader of a node does, whatever its sort.

`document_respelled` puts the steps together, for values and for their texts.
-/

namespace KernelCheck

/-! ## The schema as a table -/

/-- The sorts of nodes in a serialized module. -/
inductive NodeSort where
  | module | function | marker | param | type | block | declarator | stmt | init | expr

/-- What the value of a field is made of. -/
inductive Content where
  /-- Anything but nodes. -/
  | plain
  | node (s : NodeSort)
  /-- A statement of a function body. -/
  | bodyItem
  | list (c : Content)

/-- A field of a node: what its value is made of and, if it may be left out, the default
value. -/
structure Field where
  content : Content
  default : Option Json

namespace Field

/-- A key with any value, that must be there. -/
def plain : Field := ⟨.plain, none⟩

/-- A truth value, false where it is left out. -/
def flag : Field := ⟨.plain, some (.bool false)⟩

/-- A number, zero where it is left out. -/
def count : Field := ⟨.plain, some (.ofNat 0)⟩

/-- Two offsets, both zero where they are left out. -/
def offsets : Field := ⟨.plain, some (.array [.ofNat 0, .ofNat 0])⟩

/-- A node of a sort, that must be there. -/
def one (s : NodeSort) : Field := ⟨.node s, none⟩

/-- A node that may be missing. -/
def clause (s : NodeSort) : Field := ⟨.node s, some .null⟩

/-- A list that has to be there. -/
def listed (s : NodeSort) : Field := ⟨.list (.node s), none⟩

/-- A list that is empty if it is left out. -/
def many (c : Content) : Field := ⟨.list c, some (.array [])⟩

end Field

/-- The fields of an expression of this kind. -/
def ExprNode.schema : String → List (String × Field)
  | "ident" => [("name", .plain)]
  | "int" | "float" | "char" | "string" => [("value", .plain)]
  | "unary" => [("op", .plain), ("operand", .one .expr)]
  | "binary" => [("op", .plain), ("lhs", .one .expr), ("rhs", .one .expr)]
  | "assign" => [("op", .plain), ("target", .one .expr), ("value", .one .expr)]
  | "call" => [("callee", .one .expr), ("args", .many (.node .expr))]
  | "index" => [("base", .one .expr), ("index", .one .expr)]
  | "member" => [("base", .one .expr), ("field", .plain), ("arrow", .flag)]
  | "cast" => [("type", .one .type), ("expr", .one .expr)]
  | "ternary" => [("cond", .one .expr), ("then", .one .expr), ("else", .one .expr)]
  | "comma" => [("exprs", .listed .expr)]
  | "sizeof_type" => [("type", .one .type)]
  | _ => []

/-- The fields of a declaration but for its offsets. -/
def DeclarationNode.schema : List (String × Field) :=
  [("type", .one .type), ("declarators", .listed .declarator), ("attrs", .many (.node .marker))]

/-- The fields of an init clause of this kind. -/
def InitNode.schema : String → List (String × Field)
  | "decl" => DeclarationNode.schema ++ [("span", .offsets)]
  | _ => [("expr", .one .expr)]

/-- The fields of a statement of this kind. -/
def StmtNode.schema : String → List (String × Field)
  | "expr" => [("expr", .one .expr)]
  | "decl" => DeclarationNode.schema
  | "block" => [("stmts", .many (.node .stmt))]
  | "if" => [("cond", .one .expr), ("then", .one .stmt), ("else", .clause .stmt)]
  | "for" =>
    [("init", .clause .init), ("test", .clause .expr), ("update", .clause .expr),
     ("body", .one .stmt), ("attrs", .many (.node .marker))]
  | "while" => [("cond", .one .expr), ("body", .one .stmt)]
  | "do_while" => [("body", .one .stmt), ("cond", .one .expr)]
  | "switch" => [("scrutinee", .one .expr), ("body", .one .stmt)]
  | "case" | "return" => [("value", .clause .expr)]
  | _ => []

namespace NodeSort

/-- The words that tell the nodes of the sort apart; there are none if all are alike. -/
def kinds : NodeSort → List String
  | stmt => StmtNode.kinds
  | init => InitNode.kinds
  | expr => ExprNode.kinds
  | _ => []

/-- A node of the sort may be written as the array of its fields. -/
def inArray : NodeSort → Bool
  | stmt | expr => false
  | _ => true

/-- The fields of a node of the sort and of this kind, in the order of the array form. -/
def schema : NodeSort → String → List (String × Field)
  | module, _ => [("functions", .many (.node .function))]
  | function, _ =>
    [("name", .plain), ("attrs", .many (.node .marker)), ("params", .many (.node .param)),
     ("return_type", .clause .type), ("body", .one .block), ("span", .offsets)]
  | marker, _ => [("name", .plain), ("span", .offsets)]
  | param, _ => [("name", .plain), ("type", .one .type), ("span", .offsets)]
  | type, _ => [("base", .plain), ("unsigned", .flag), ("const", .flag), ("pointer", .count)]
  | block, _ => [("stmts", .many .bodyItem), ("span", .offsets)]
  | declarator, _ =>
    [("name", .plain), ("dims", .many (.node .expr)), ("init", .clause .expr),
     ("span", .offsets)]
  | stmt, kind => ("kind", .plain) :: ("span", .offsets) :: StmtNode.schema kind
  | init, kind => ("kind", .plain) :: InitNode.schema kind
  | expr, kind => ("kind", .plain) :: ("span", .offsets) :: ExprNode.schema kind

/-- The members are those of a node of this kind. -/
def IsKind (s : NodeSort) (kind : String) (members : List (String × Json)) : Prop :=
  s.kinds = [] ∨ (Record.mk members).required "kind" (Json.oneOf? s.kinds) = some kind

/-- What the nodes of the sort are read as. -/
@[reducible] def Node : NodeSort → Type
  | module => Document
  | function => FunctionNode
  | marker => MarkerNode
  | param => ParamNode
  | type => TypeNode
  | block => BlockNode
  | declarator => DeclaratorNode
  | stmt => StmtNode
  | init => InitNode
  | expr => ExprNode

/-- The reader for nodes of the sort.  The depth counts for statements and what lies in them. -/
@[reducible] def read : (s : NodeSort) → Nat → Json → Option s.Node
  | module, _ => Document.ofJson?
  | function, _ => FunctionNode.ofJson?
  | marker, _ => MarkerNode.ofJson?
  | param, _ => ParamNode.ofJson?
  | type, _ => TypeNode.ofJson?
  | block, _ => BlockNode.ofJson?
  | declarator, depth => DeclaratorNode.ofJson? depth
  | stmt, depth => StmtNode.ofJson? depth
  | init, depth => InitNode.ofJson? depth
  | expr, depth => ExprNode.ofJson? depth

end NodeSort

/-- A value spells a node of this sort and kind with these members: an object has them in
any order, an array without their keys and in the order of the fields. -/
inductive Spells (s : NodeSort) (kind : String) : Json → List (String × Json) → Prop
  | object {members : List (String × Json)} (hkind : s.IsKind kind members) :
      Spells s kind (.ofMembers members) members
  | array {items : List Json} (hform : s.inArray)
      (hlength : items.length ≤ (s.schema kind).length)
      (hkind : s.IsKind kind (((s.schema kind).map Prod.fst).zip items)) :
      Spells s kind (.array items) (((s.schema kind).map Prod.fst).zip items)

/-- One step from one way of writing a value to another one.  Steps can be undone, and what is
to be left out can be left out first, so no statement in between has to be nested deeper than
the ones at the ends. -/
inductive Respelling : Content → Json → Json → Prop
  | permuted {s : NodeSort} {kind : String} {v v' : Json} {members members' : List (String × Json)}
      (hv : Spells s kind v members) (hv' : Spells s kind v' members')
      (h : members.Perm members') : Respelling (.node s) v v'
  /-- A member with a key that is no field of the node. -/
  | unknown {s : NodeSort} {kind : String} {v v' : Json} {pre post : List (String × Json)}
      {key : String} {value : Json} (hv : Spells s kind v (pre ++ post))
      (hv' : Spells s kind v' (pre ++ (key, value) :: post))
      (hkey : (s.schema kind).lookup key = none) : Respelling (.node s) v v'
  /-- A field with its default value, where it was left out. -/
  | written {s : NodeSort} {kind : String} {v v' : Json} {pre post : List (String × Json)}
      {key : String} {f : Field} {value : Json} (hv : Spells s kind v (pre ++ post))
      (hv' : Spells s kind v' (pre ++ (key, value) :: post))
      (hkey : (s.schema kind).lookup key = some f) (hvalue : f.default = some value)
      (hnew : ∀ m ∈ pre ++ post, m.1 ≠ key) : Respelling (.node s) v v'
  /-- A step in the value of a field. -/
  | inside {s : NodeSort} {kind : String} {v v' u u' : Json} {pre post : List (String × Json)}
      {key : String} {f : Field} (hv : Spells s kind v (pre ++ (key, u) :: post))
      (hv' : Spells s kind v' (pre ++ (key, u') :: post))
      (hkey : (s.schema kind).lookup key = some f) (h : Respelling f.content u u') :
      Respelling (.node s) v v'
  | item {c : Content} {u u' : Json} {pre post : List Json} (h : Respelling c u u') :
      Respelling (.list c) (.array (pre ++ u :: post)) (.array (pre ++ u' :: post))
  /-- A step in a statement of a function body, within the limit of nesting. -/
  | bodyItem {v v' : Json} (h : Respelling (.node .stmt) v v') (hv : v.fits (nestingLimit - 5))
      (hv' : v'.fits (nestingLimit - 5)) : Respelling .bodyItem v v'

/-! ## Reading fields -/

/-- The values are read alike by every reader for what they are made of. -/
def Content.Alike : Content → Json → Json → Prop
  | plain, v, v' => v = v'
  | node s, v, v' => v ≠ .null ∧ v' ≠ .null ∧ ∀ depth, s.read depth v = s.read depth v'
  | bodyItem, v, v' => StmtNode.ofBodyItem? v = StmtNode.ofBodyItem? v'
  | list c, v, v' => ∃ pre u u' post,
      v = .array (pre ++ u :: post) ∧ v' = .array (pre ++ u' :: post) ∧ c.Alike u u'

/-- Lists with items that are read alike are read alike. -/
theorem Content.Alike.list? {c : Content} {v v' : Json} (h : (Content.list c).Alike v v')
    {α : Type} {read : Json → Option α} (hread : ∀ u u', c.Alike u u' → read u = read u') :
    Json.list? read v = Json.list? read v' := by
  obtain ⟨pre, u, u', post, rfl, rfl, hu⟩ := h
  simp [Json.list?, Json.items?, List.mapM_append, hread u u' hu]

/-- The same for the statements of a body. -/
theorem Content.Alike.bodyItems {v v' : Json} (h : (Content.list .bodyItem).Alike v v') :
    Json.list? StmtNode.ofBodyItem? v = Json.list? StmtNode.ofBodyItem? v' :=
  h.list? fun _ _ hu => hu

/-- The same for nodes of one sort. -/
theorem Content.Alike.nodes {s : NodeSort} {v v' : Json} (h : (Content.list (.node s)).Alike v v')
    (depth : Nat) : Json.list? (s.read depth) v = Json.list? (s.read depth) v' :=
  h.list? fun _ _ hu => hu.2.2 depth

/-- What two records say of a field: the same, or the first one nothing and the second one its
default value, or values that are read alike. -/
def Field.Agree (f : Field) (o o' : Option (Option Json)) : Prop :=
  o = o' ∨ (∃ value, f.default = some value ∧ o = some none ∧ o' = some (some value)) ∨
    ∃ v v', f.content.Alike v v' ∧ o = some (some v) ∧ o' = some (some v')

namespace Record

/-- The records agree on these fields. -/
def Agree (fields : List (String × Field)) (r r' : Record) : Prop :=
  ∀ key f, fields.lookup key = some f → f.Agree (r.field? key) (r'.field? key)

namespace Agree

variable {fields : List (String × Field)} {r r' : Record} {key : String} {α : Type}

/-- A field that has to be there. -/
theorem required (h : Agree fields r r') {c : Content}
    (hkey : fields.lookup key = some ⟨c, none⟩) {read : Json → Option α}
    (hread : ∀ v v', c.Alike v v' → read v = read v') :
    r.required key read = r'.required key read := by
  rcases h key _ hkey with heq | ⟨_, hdefault, -⟩ | ⟨v, v', hv, hr, hr'⟩
  · simp [Record.required, heq]
  · cases hdefault
  · simp [Record.required, hr, hr', hread v v' hv]

/-- A field with a default, which an explicit value may spell out. -/
theorem withDefault (h : Agree fields r r') {c : Content} {value : Json}
    (hkey : fields.lookup key = some ⟨c, some value⟩) {read : Json → Option α} {default : α}
    (hdefault : read value = some default) (hread : ∀ v v', c.Alike v v' → read v = read v') :
    r.withDefault key default read = r'.withDefault key default read := by
  rcases h key _ hkey with heq | ⟨_, ⟨⟩, hr, hr'⟩ | ⟨v, v', hv, hr, hr'⟩
  · simp [Record.withDefault, heq]
  · simp [Record.withDefault, hr, hr', hdefault]
  · simp [Record.withDefault, hr, hr', hread v v' hv]

/-- A field with a text or another value of its own. -/
theorem plain (h : Agree fields r r') (key : String) (hkey : fields.lookup key = some .plain)
    (read : Json → Option α) : r.required key read = r'.required key read :=
  h.required hkey fun _ _ => congrArg read

/-- A truth value, which is false if it is left out. -/
theorem flag (h : Agree fields r r') (key : String) (hkey : fields.lookup key = some .flag) :
    r.withDefault key false Json.bool? = r'.withDefault key false Json.bool? :=
  h.withDefault hkey rfl fun _ _ => congrArg _

/-- A small number, which is zero if it is left out. -/
theorem count (h : Agree fields r r') (key : String) (hkey : fields.lookup key = some .count) :
    r.withDefault key 0 (Json.nat? 256) = r'.withDefault key 0 (Json.nat? 256) :=
  h.withDefault hkey (by decide) fun _ _ => congrArg _

/-- The offsets of a node, which are zero if they are left out. -/
theorem offsets (h : Agree fields r r') (hkey : fields.lookup "span" = some .offsets) :
    r.offsets = r'.offsets :=
  h.withDefault hkey (by decide) fun _ _ => congrArg _

/-- A node that has to be there. -/
theorem one (h : Agree fields r r') (key : String) {s : NodeSort}
    (hkey : fields.lookup key = some (.one s)) (depth : Nat) :
    r.required key (s.read depth) = r'.required key (s.read depth) :=
  h.required hkey fun _ _ hv => hv.2.2 depth

/-- A list of nodes that has to be there. -/
theorem listed (h : Agree fields r r') (key : String) {s : NodeSort}
    (hkey : fields.lookup key = some (.listed s)) (depth : Nat) :
    r.required key (Json.list? (s.read depth)) = r'.required key (Json.list? (s.read depth)) :=
  h.required hkey fun _ _ hv => hv.nodes depth

/-- A list of nodes, which is empty if it is left out. -/
theorem many (h : Agree fields r r') (key : String) {s : NodeSort}
    (hkey : fields.lookup key = some (.many (.node s))) (depth : Nat) :
    r.withDefault key [] (Json.list? (s.read depth)) =
      r'.withDefault key [] (Json.list? (s.read depth)) :=
  h.withDefault hkey rfl fun _ _ hv => hv.nodes depth

/-- A node that may be missing. -/
theorem clause (h : Agree fields r r') (key : String) {s : NodeSort}
    (hkey : fields.lookup key = some (.clause s)) (depth : Nat) :
    r.optional key (s.read depth) = r'.optional key (s.read depth) := by
  rcases h key _ hkey with heq | ⟨_, ⟨⟩, hr, hr'⟩ | ⟨v, v', ⟨hv, hv', hread⟩, hr, hr'⟩
  · simp [Record.optional, heq]
  · simp [Record.optional, hr, hr']
  · simp [Record.optional, hr, hr', hread]

/-- The markers of two records. -/
theorem markers (h : Agree fields r r')
    (hkey : fields.lookup "attrs" = some (.many (.node .marker))) :
    MarkerNode.ofRecord? r = MarkerNode.ofRecord? r' :=
  h.many "attrs" hkey 0

end Agree

end Record

/-! ## Reading nodes -/

section Nodes

variable {v v' : Json} {r r' : Record}

/-- A marker is read by its fields. -/
theorem MarkerNode.ofJson?_congr (hv : Record.ofJson? ["name", "span"] v = some r)
    (hv' : Record.ofJson? ["name", "span"] v' = some r') {kind : String}
    (h : Record.Agree (NodeSort.marker.schema kind) r r') : ofJson? v = ofJson? v' := by
  rw [ofJson?, ofJson?, hv, hv']
  simp only [Option.bind_eq_bind, Option.bind_some, h.plain "name" rfl, h.offsets rfl]

/-- A type is read by its fields. -/
theorem TypeNode.ofJson?_congr
    (hv : Record.ofJson? ["base", "unsigned", "const", "pointer"] v = some r)
    (hv' : Record.ofJson? ["base", "unsigned", "const", "pointer"] v' = some r') {kind : String}
    (h : Record.Agree (NodeSort.type.schema kind) r r') : ofJson? v = ofJson? v' := by
  rw [ofJson?, ofJson?, hv, hv']
  simp only [Option.bind_eq_bind, Option.bind_some, h.plain "base" rfl, h.flag "unsigned" rfl,
    h.flag "const" rfl, h.count "pointer" rfl]

/-- A parameter is read by its fields. -/
theorem ParamNode.ofJson?_congr (hv : Record.ofJson? ["name", "type", "span"] v = some r)
    (hv' : Record.ofJson? ["name", "type", "span"] v' = some r') {kind : String}
    (h : Record.Agree (NodeSort.param.schema kind) r r') : ofJson? v = ofJson? v' := by
  rw [ofJson?, ofJson?, hv, hv']
  simp only [Option.bind_eq_bind, Option.bind_some, h.plain "name" rfl, h.one "type" rfl 0,
    h.offsets rfl]

/-- An expression is read by its kind and the fields of that kind. -/
theorem ExprNode.ofJson?_congr (hv : Record.ofObject? v = some r)
    (hv' : Record.ofObject? v' = some r') {kind : String}
    (hkind : r.required "kind" (Json.oneOf? kinds) = some kind)
    (hkind' : r'.required "kind" (Json.oneOf? kinds) = some kind)
    (h : Record.Agree (NodeSort.expr.schema kind) r r') (depth : Nat) :
    ofJson? depth v = ofJson? depth v' := by
  cases depth with
  | zero => rfl
  | succ depth =>
      simp only [ofJson?, hv, hv', hkind, hkind', h.offsets rfl, Option.bind_eq_bind,
        Option.bind_some]
      congr 1
      funext o
      split
      · rw [h.plain "name" rfl]
      · rw [h.plain "value" rfl]
      · rw [h.plain "value" rfl]
      · rw [h.plain "value" rfl]
      · rw [h.plain "value" rfl]
      · rw [h.plain "op" rfl, h.one "operand" rfl depth]
      · rw [h.plain "op" rfl, h.one "lhs" rfl depth, h.one "rhs" rfl depth]
      · rw [h.plain "op" rfl, h.one "target" rfl depth, h.one "value" rfl depth]
      · rw [h.many "args" rfl depth, h.one "callee" rfl depth]
      · rw [h.one "base" rfl depth, h.one "index" rfl depth]
      · rw [h.plain "field" rfl, h.flag "arrow" rfl, h.one "base" rfl depth]
      · rw [h.one "type" rfl 0, h.one "expr" rfl depth]
      · rw [h.one "cond" rfl depth, h.one "then" rfl depth, h.one "else" rfl depth]
      · rw [h.listed "exprs" rfl depth]
      · rw [h.one "type" rfl 0]
      · rfl

/-- A declarator is read by its fields. -/
theorem DeclaratorNode.ofJson?_congr
    (hv : Record.ofJson? ["name", "dims", "init", "span"] v = some r)
    (hv' : Record.ofJson? ["name", "dims", "init", "span"] v' = some r') {kind : String}
    (h : Record.Agree (NodeSort.declarator.schema kind) r r') (depth : Nat) :
    ofJson? depth v = ofJson? depth v' := by
  rw [ofJson?, ofJson?, hv, hv']
  simp only [Option.bind_eq_bind, Option.bind_some, h.plain "name" rfl, h.many "dims" rfl depth,
    h.clause "init" rfl depth, h.offsets rfl]

/-- A declaration is read by its fields, among those of what holds it. -/
theorem DeclarationNode.ofRecord?_congr {fields : List (String × Field)}
    (h : Record.Agree fields r r') (htype : fields.lookup "type" = some (.one .type))
    (hdeclarators : fields.lookup "declarators" = some (.listed .declarator))
    (hmarkers : fields.lookup "attrs" = some (.many (.node .marker))) (depth : Nat)
    (o : Offsets) : ofRecord? depth o r = ofRecord? depth o r' := by
  rw [ofRecord?, ofRecord?, h.one "type" htype 0, h.listed "declarators" hdeclarators depth,
    h.markers hmarkers]

/-- An init clause is read by its kind and the fields of that kind. -/
theorem InitNode.ofJson?_congr {kind : String} (hv : tagged? v = some (kind, r))
    (hv' : tagged? v' = some (kind, r')) (h : Record.Agree (schema kind) r r') (depth : Nat) :
    ofJson? depth v = ofJson? depth v' := by
  rw [ofJson?, ofJson?, hv, hv']
  by_cases hkind : kind = "decl"
  · subst hkind
    simp only [Option.bind_eq_bind, Option.bind_some, h.offsets rfl,
      DeclarationNode.ofRecord?_congr h rfl rfl rfl]
  · have hexpr : (schema kind).lookup "expr" = some (.one .expr) := by
      simp [schema]
    simp [h.one "expr" hexpr depth]

/-- A statement is read by its kind and the fields of that kind. -/
theorem StmtNode.ofJson?_congr (hv : Record.ofObject? v = some r)
    (hv' : Record.ofObject? v' = some r') {kind : String}
    (hkind : r.required "kind" (Json.oneOf? kinds) = some kind)
    (hkind' : r'.required "kind" (Json.oneOf? kinds) = some kind)
    (h : Record.Agree (NodeSort.stmt.schema kind) r r') (depth : Nat) :
    ofJson? depth v = ofJson? depth v' := by
  cases depth with
  | zero => rfl
  | succ depth =>
      simp only [ofJson?, hv, hv', hkind, hkind', h.offsets rfl, Option.bind_eq_bind,
        Option.bind_some]
      congr 1
      funext o
      split
      · rw [h.one "expr" rfl depth]
      · rw [DeclarationNode.ofRecord?_congr h rfl rfl rfl]
      · rw [h.many "stmts" rfl depth]
      · rw [h.one "cond" rfl depth, h.one "then" rfl depth, h.clause "else" rfl depth]
      · rw [h.clause "init" rfl depth, h.clause "test" rfl depth, h.clause "update" rfl depth,
          h.one "body" rfl depth, h.markers rfl]
      · rw [h.one "cond" rfl depth, h.one "body" rfl depth]
      · rw [h.one "body" rfl depth, h.one "cond" rfl depth]
      · rw [h.one "scrutinee" rfl depth, h.one "body" rfl depth]
      · rw [h.clause "value" rfl depth]
      · rfl
      · rfl
      · rw [h.clause "value" rfl depth]
      · rfl
      · rfl

/-- A block is read by its fields. -/
theorem BlockNode.ofJson?_congr (hv : Record.ofJson? ["stmts", "span"] v = some r)
    (hv' : Record.ofJson? ["stmts", "span"] v' = some r') {kind : String}
    (h : Record.Agree (NodeSort.block.schema kind) r r') : ofJson? v = ofJson? v' := by
  have hstmts : r.withDefault "stmts" [] (Json.list? StmtNode.ofBodyItem?) =
      r'.withDefault "stmts" [] (Json.list? StmtNode.ofBodyItem?) :=
    h.withDefault rfl rfl fun _ _ => Content.Alike.bodyItems
  rw [ofJson?, ofJson?, hv, hv']
  simp only [Option.bind_eq_bind, Option.bind_some, hstmts, h.offsets rfl]

/-- A function is read by its fields. -/
theorem FunctionNode.ofJson?_congr
    (hv : Record.ofJson? ["name", "attrs", "params", "return_type", "body", "span"] v = some r)
    (hv' : Record.ofJson? ["name", "attrs", "params", "return_type", "body", "span"] v' = some r')
    {kind : String} (h : Record.Agree (NodeSort.function.schema kind) r r') :
    ofJson? v = ofJson? v' := by
  rw [ofJson?, ofJson?, hv, hv']
  simp only [Option.bind_eq_bind, Option.bind_some, h.plain "name" rfl, h.markers rfl,
    h.many "params" rfl 0, h.clause "return_type" rfl 0, h.one "body" rfl 0, h.offsets rfl]

/-- A document is read by its fields. -/
theorem Document.ofJson?_congr (hv : Record.ofJson? ["functions"] v = some r)
    (hv' : Record.ofJson? ["functions"] v' = some r') {kind : String}
    (h : Record.Agree (NodeSort.module.schema kind) r r') : ofJson? v = ofJson? v' := by
  rw [ofJson?, ofJson?, hv, hv']
  simp only [Option.bind_eq_bind, Option.bind_some, h.many "functions" rfl 0]

end Nodes

/-! ## Spelled members -/

/-- Members that all have keys are a record. -/
theorem Record.ofMembers?_map_some (members : List (String × Json)) :
    ofMembers? (members.map fun (key, value) => (some key, value)) = some ⟨members⟩ := by
  have hnamed : (members.map fun (key, value) => (some key, value)).mapM named? = some members := by
    induction members with
    | nil => rfl
    | cons m rest ih => rw [List.map_cons, List.mapM_cons, ih]; rfl
  rw [ofMembers?, hnamed, Option.map_some]

/-- A word that is accepted is one of the words. -/
theorem Json.mem_of_oneOf? {words : List String} {v : Json} {word : String}
    (h : v.oneOf? words = some word) : word ∈ words := by
  cases v <;> simp only [oneOf?, reduceCtorEq, Option.filter_eq_some_iff,
    Option.bind_eq_some_iff] at h
  · obtain ⟨k, -, hk⟩ := h
    split at hk
    · cases hk
    · exact List.mem_of_getElem? hk
  · exact List.contains_iff_mem.mp h.2

namespace Spells

variable {s : NodeSort} {kind : String} {v : Json} {members : List (String × Json)}

/-- A node is spelled by an object or an array, and not by nothing. -/
theorem ne_null (h : Spells s kind v members) : v ≠ .null := by
  cases h <;> simp [Json.ofMembers]

/-- A spelled node is the record of its members. -/
theorem ofJson? (h : Spells s kind v members) :
    Record.ofJson? ((s.schema kind).map Prod.fst) v = some ⟨members⟩ := by
  cases h with
  | object _ => exact Record.ofMembers?_map_some members
  | array _ hlength _ =>
      rw [Record.ofJson?, Record.ofItems?, if_pos (by rwa [List.length_map])]

/-- A node that has to be an object is the record of its members. -/
theorem ofObject? (h : Spells s kind v members) (hform : s.inArray = false) :
    Record.ofObject? v = some ⟨members⟩ := by
  cases h with
  | object _ => exact Record.ofMembers?_map_some members
  | array hform' _ _ => simp [hform] at hform'

/-- A spelled node says its kind, if the sort has kinds. -/
theorem required (h : Spells s kind v members) (hkinds : s.kinds ≠ []) :
    (Record.mk members).required "kind" (Json.oneOf? s.kinds) = some kind := by
  cases h with
  | object hkind => exact hkind.resolve_left hkinds
  | array _ _ hkind => exact hkind.resolve_left hkinds

end Spells

namespace Record

/-! What a step does to the members, field by field. -/

/-- The order of the members does not matter. -/
theorem field?_perm {members members' : List (String × Json)} (h : members.Perm members')
    (name : String) : (mk members).field? name = (mk members').field? name := by
  have hperm := h.filter (·.1 == name)
  simp only [field?]
  generalize members.filter (·.1 == name) = found at hperm ⊢
  generalize members'.filter (·.1 == name) = found' at hperm ⊢
  have hlength := hperm.length_eq
  match found, found' with
  | [], [] => rfl
  | [m], [m'] => rw [List.singleton_perm_singleton.mp hperm]
  | _ :: _ :: _, _ :: _ :: _ => rfl
  | [], _ :: _ | _ :: _, [] | [_], _ :: _ :: _ | _ :: _ :: _, [_] => simp at hlength

/-- A member with another key does not matter. -/
theorem field?_insert_of_ne (pre post : List (String × Json)) {key name : String} (hne : key ≠ name)
    (value : Json) :
    (mk (pre ++ (key, value) :: post)).field? name = (mk (pre ++ post)).field? name := by
  simp [field?, hne]

/-- A key that no member has is not there. -/
theorem field?_eq_none {members : List (String × Json)} {name : String}
    (h : ∀ m ∈ members, m.1 ≠ name) : (mk members).field? name = some none := by
  have hfilter : members.filter (·.1 == name) = [] := by
    simpa [List.filter_eq_nil_iff] using h
  simp [field?, hfilter]

/-- A key that occurs twice is an error. -/
theorem field?_insert_repeated (pre post : List (String × Json)) {key : String} (value : Json)
    (h : ∃ m ∈ pre ++ post, m.1 = key) : (mk (pre ++ (key, value) :: post)).field? key = none := by
  obtain ⟨m, hm, hkey⟩ := h
  have hpos : 0 < ((pre ++ post).filter (·.1 == key)).length :=
    List.length_pos_of_mem (List.mem_filter.mpr ⟨hm, by simpa using hkey⟩)
  have hlength : 1 < ((pre ++ (key, value) :: post).filter (·.1 == key)).length := by
    simp only [List.filter_append, List.length_append, List.filter_cons, beq_self_eq_true, if_true,
      List.length_cons] at hpos ⊢
    omega
  simp only [field?]
  generalize (pre ++ (key, value) :: post).filter (·.1 == key) = found at hlength ⊢
  match found with
  | [] | [_] => simp at hlength
  | _ :: _ :: _ => rfl

/-- A new member is found under its key. -/
theorem field?_insert_self (pre post : List (String × Json)) {key : String} (value : Json)
    (hnew : ∀ m ∈ pre ++ post, m.1 ≠ key) :
    (mk (pre ++ (key, value) :: post)).field? key = some (some value) := by
  have hfilter : pre.filter (·.1 == key) = [] ∧ post.filter (·.1 == key) = [] := by
    simpa [List.filter_eq_nil_iff, or_imp, forall_and] using hnew
  simp [field?, hfilter]

end Record

/-! Of the array form of an init clause, the kind is no field of the record. -/

namespace InitNode

/-- The kind of an init clause is no field of it. -/
theorem notMem_schema (kind : String) : "kind" ∉ (schema kind).map Prod.fst := by
  unfold schema
  split <;> decide

/-- The fields of an init clause are those that its reader asks for. -/
theorem map_fst_schema {kind : String} (h : kind ∈ kinds) :
    (schema kind).map Prod.fst = fields kind := by
  obtain rfl | rfl : kind = "decl" ∨ kind = "expr" := by simpa [kinds] using h
  · rfl
  · rfl

/-- A spelled init clause has its kind and its other fields. -/
theorem tagged?_of_spells {kind : String} {v : Json} {members : List (String × Json)}
    (h : Spells .init kind v members) : ∃ r, tagged? v = some (kind, r) ∧
      ∀ name ≠ "kind", r.field? name = (Record.mk members).field? name := by
  have hkind : (Record.mk members).required "kind" (Json.oneOf? kinds) = some kind :=
    h.required (by decide)
  cases h with
  | object _ =>
      refine ⟨⟨members⟩, ?_, fun _ _ => rfl⟩
      simp [tagged?, Json.ofMembers, Record.ofObject?, Record.ofMembers?_map_some members, hkind]
  | @array items _ hlength _ =>
      cases items with
      | nil => simp [Record.required, Record.field?] at hkind
      | cons value items =>
          have hnames : ∀ m ∈ ((schema kind).map Prod.fst).zip items, m.1 ≠ "kind" := by
            intro m hm heq
            exact notMem_schema kind (heq ▸ (List.of_mem_zip (a := m.1) (b := m.2) hm).1)
          have hfield := Record.field?_insert_self [] _ value hnames
          have hvalue : value.oneOf? kinds = some kind := by
            change (Record.mk ([] ++ ("kind", value) :: _)).required "kind" _ = _ at hkind
            simpa only [Record.required, hfield, Option.bind_eq_bind, Option.bind_some] using hkind
          have hfields := map_fst_schema (Json.mem_of_oneOf? hvalue)
          have hle : items.length ≤ (fields kind).length := by
            simpa [NodeSort.schema, ← hfields] using hlength
          refine ⟨⟨(fields kind).zip items⟩, ?_, fun name hname => ?_⟩
          · simp [tagged?, hvalue, Record.ofItems?, hle]
          · rw [← hfields]
            exact (Record.field?_insert_of_ne [] _ hname.symm value).symm

end InitNode

/-! ## Steps -/

section Steps

variable {s : NodeSort} {kind : String} {v v' : Json} {members members' : List (String × Json)}

/-- Nodes whose members agree on all fields are read alike. -/
theorem NodeSort.alike_of_agree (hv : Spells s kind v members) (hv' : Spells s kind v' members')
    (h : Record.Agree (s.schema kind) ⟨members⟩ ⟨members'⟩) : (Content.node s).Alike v v' := by
  refine ⟨hv.ne_null, hv'.ne_null, fun depth => ?_⟩
  cases s with
  | module => exact Document.ofJson?_congr hv.ofJson? hv'.ofJson? h
  | function => exact FunctionNode.ofJson?_congr hv.ofJson? hv'.ofJson? h
  | marker => exact MarkerNode.ofJson?_congr hv.ofJson? hv'.ofJson? h
  | param => exact ParamNode.ofJson?_congr hv.ofJson? hv'.ofJson? h
  | type => exact TypeNode.ofJson?_congr hv.ofJson? hv'.ofJson? h
  | block => exact BlockNode.ofJson?_congr hv.ofJson? hv'.ofJson? h
  | declarator => exact DeclaratorNode.ofJson?_congr hv.ofJson? hv'.ofJson? h depth
  | stmt =>
      exact StmtNode.ofJson?_congr (hv.ofObject? rfl) (hv'.ofObject? rfl)
        (hv.required (by decide)) (hv'.required (by decide)) h depth
  | expr =>
      exact ExprNode.ofJson?_congr (hv.ofObject? rfl) (hv'.ofObject? rfl)
        (hv.required (by decide)) (hv'.required (by decide)) h depth
  | init =>
      obtain ⟨r, hr, hfield⟩ := InitNode.tagged?_of_spells hv
      obtain ⟨r', hr', hfield'⟩ := InitNode.tagged?_of_spells hv'
      refine InitNode.ofJson?_congr hr hr' (fun name f hf => ?_) depth
      have hname : name ≠ "kind" := by
        rintro rfl
        obtain ⟨pre, post, hschema, -⟩ := List.lookup_eq_some_iff.mp hf
        exact InitNode.notMem_schema kind (by simp [hschema])
      rw [hfield name hname, hfield' name hname]
      refine h name f ?_
      rw [NodeSort.schema, List.lookup_cons, beq_false_of_ne hname, hf]

/-- Members in another order agree. -/
theorem Record.agree_permuted {fields : List (String × Field)} (h : members.Perm members') :
    Agree fields ⟨members⟩ ⟨members'⟩ :=
  fun key _ _ => Or.inl (field?_perm h key)

variable {fields : List (String × Field)} {pre post : List (String × Json)} {key : String}

/-- A member with an unknown key changes nothing. -/
theorem Record.agree_unknown (hkey : fields.lookup key = none) (value : Json) :
    Agree fields ⟨pre ++ post⟩ ⟨pre ++ (key, value) :: post⟩ := by
  intro name f hname
  have hne : key ≠ name := by
    rintro rfl
    simp [hkey] at hname
  exact Or.inl (field?_insert_of_ne pre post hne value).symm

/-- A default that is written out changes nothing. -/
theorem Record.agree_written {f : Field} (hkey : fields.lookup key = some f) {value : Json}
    (hvalue : f.default = some value) (hnew : ∀ m ∈ pre ++ post, m.1 ≠ key) :
    Agree fields ⟨pre ++ post⟩ ⟨pre ++ (key, value) :: post⟩ := by
  intro name g hname
  by_cases hne : key = name
  · subst hne
    obtain rfl : f = g := Option.some.inj (hkey.symm.trans hname)
    exact Or.inr (Or.inl ⟨value, hvalue, field?_eq_none hnew,
      field?_insert_self pre post value hnew⟩)
  · exact Or.inl (field?_insert_of_ne pre post hne value).symm

/-- A value that is read alike changes nothing. -/
theorem Record.agree_inside {f : Field} (hkey : fields.lookup key = some f) {u u' : Json}
    (hu : f.content.Alike u u') :
    Agree fields ⟨pre ++ (key, u) :: post⟩ ⟨pre ++ (key, u') :: post⟩ := by
  intro name g hname
  by_cases hne : key = name
  · subst hne
    obtain rfl : f = g := Option.some.inj (hkey.symm.trans hname)
    by_cases hnew : ∀ m ∈ pre ++ post, m.1 ≠ key
    · exact Or.inr (Or.inr ⟨u, u', hu, field?_insert_self pre post u hnew,
        field?_insert_self pre post u' hnew⟩)
    · have hrepeated : ∃ m ∈ pre ++ post, m.1 = key := by
        simpa using hnew
      rw [field?_insert_repeated pre post u hrepeated, field?_insert_repeated pre post u' hrepeated]
      exact Or.inl rfl
  · rw [field?_insert_of_ne pre post hne, field?_insert_of_ne pre post hne]
    exact Or.inl rfl

end Steps

/-- A step changes nothing of what is read. -/
theorem Respelling.alike {c : Content} {v v' : Json} (h : Respelling c v v') : c.Alike v v' := by
  induction h with
  | permuted hv hv' h => exact NodeSort.alike_of_agree hv hv' (Record.agree_permuted h)
  | unknown hv hv' hkey => exact NodeSort.alike_of_agree hv hv' (Record.agree_unknown hkey _)
  | written hv hv' hkey hvalue hnew =>
      exact NodeSort.alike_of_agree hv hv' (Record.agree_written hkey hvalue hnew)
  | inside hv hv' hkey _ ih => exact NodeSort.alike_of_agree hv hv' (Record.agree_inside hkey ih)
  | item _ ih => exact ⟨_, _, _, _, rfl, rfl, ih⟩
  | bodyItem _ hv hv' ih =>
      rw [Content.Alike, StmtNode.ofBodyItem?, StmtNode.ofBodyItem?, if_pos hv, if_pos hv']
      exact ih.2.2 _

/-- Any number of steps, there and back, change nothing for a reader of nodes. -/
theorem NodeSort.read_eq_of_respelling {s : NodeSort} {v v' : Json}
    (h : Relation.EqvGen (Respelling (.node s)) v v') (depth : Nat) :
    s.read depth v = s.read depth v' := by
  induction h with
  | rel _ _ h => exact h.alike.2.2 depth
  | refl _ => rfl
  | symm _ _ _ ih => exact ih.symm
  | trans _ _ _ _ _ ih ih' => exact ih.trans ih'

/-- A value that is a document stays the same document, in whatever way it is respelled:

* with the members of its nodes in another order, the kind and the offsets included,
* with more or fewer members that are no fields of the node that they stand in,
* with default values that are written out or left out,

at any depth, in nodes of every sort, and as long as nesting stays within its limit.  So all
texts of the two values load alike. -/
theorem document_respelled {v v' : Json}
    (h : Relation.EqvGen (Respelling (.node .module)) v v') :
    Document.ofJson? v' = Document.ofJson? v ∧
      ∀ text text' origin : String, Json.IsTextOf text.toList v → Json.IsTextOf text'.toList v' →
        Module.parse text' origin = Module.parse text origin := by
  have hread : Document.ofJson? v = Document.ofJson? v' := NodeSort.read_eq_of_respelling h 0
  refine ⟨hread.symm, fun text text' origin hv hv' => ?_⟩
  have hparse := Json.parse?_of_isTextOf hv
  have hparse' := Json.parse?_of_isTextOf hv'
  rw [String.ofList_toList] at hparse hparse'
  simp only [Module.parse, Document.parse, hparse, hparse', Option.bind_some, hread]

/-- A module with one function, whose body is one statement. -/
def Json.bodySample (stmt : Json) : Json :=
  .ofMembers [("functions", .array [.ofMembers [("name", .ofText "f"),
    ("body", .ofMembers [("stmts", .array [stmt])])]])]

/-- A step in a statement is a step in a module around it. -/
theorem Respelling.bodySample {v v' : Json} (h : Respelling (.node .stmt) v v')
    (hv : v.fits (nestingLimit - 5)) (hv' : v'.fits (nestingLimit - 5)) :
    Respelling (.node .module) (.bodySample v) (.bodySample v') := by
  have hblock (v : Json) : Spells .block "" (.ofMembers [("stmts", .array [v])])
      ([] ++ ("stmts", .array ([] ++ v :: [])) :: []) := .object (.inl rfl)
  have hfunction (body : Json) :
      Spells .function "" (.ofMembers [("name", .ofText "f"), ("body", body)])
        ([("name", .ofText "f")] ++ ("body", body) :: []) := .object (.inl rfl)
  have hmodule (f : Json) : Spells .module "" (.ofMembers [("functions", .array [f])])
      ([] ++ ("functions", .array ([] ++ f :: [])) :: []) := .object (.inl rfl)
  have hbody := inside (hblock v) (hblock v') rfl (item (bodyItem h hv hv'))
  have hf := inside (hfunction _) (hfunction _) rfl hbody
  exact inside (hmodule _) (hmodule _) rfl (item hf)

/-- The statement `return x;`, with further members and with these members for the variable. -/
def Json.returnSample (further var : List (String × Json)) : Json :=
  .ofMembers ([("kind", .ofText "return")] ++ (further ++ [("value", .ofMembers var)]))

/-- The variable with its members in another order and one more, and the statement with its
offsets. -/
theorem document_respelled_returnSample :
    let span : String × Json := ("span", .array [.ofNat 0, .ofNat 0])
    let kind : String × Json := ("kind", .ofText "ident")
    let name : String × Json := ("name", .ofText "x")
    let line : String × Json := ("line", .ofNat 3)
    let v : Json := .bodySample (.returnSample [] [kind, name])
    let v' : Json := .bodySample (.returnSample [span] [name, line, kind])
    let body : BlockNode := ⟨[.returnJump (some (.ident "x" ⟨0, 0⟩)) ⟨0, 0⟩], ⟨0, 0⟩⟩
    Relation.EqvGen (Respelling (.node .module)) v v' ∧
      Document.ofJson? v = some ⟨[⟨"f", [], [], none, body, ⟨0, 0⟩⟩]⟩ ∧
      Document.ofJson? v' = Document.ofJson? v ∧
      Module.parse v'.pretty "a.json" = Module.parse v.pretty "a.json" := by
  intro span kind name line v v' body
  have hvar {var : List (String × Json)} (h : NodeSort.expr.IsKind "ident" var) :
      Spells .expr "ident" (.ofMembers var) var := .object h
  have hstmt (var : List (String × Json)) : Spells .stmt "return" (.returnSample [] var)
      ([("kind", .ofText "return")] ++ ("value", .ofMembers var) :: []) := .object (.inr rfl)
  have hplaced (var : List (String × Json)) : Spells .stmt "return" (.returnSample [span] var)
      ([("kind", .ofText "return")] ++ span :: [("value", .ofMembers var)]) := .object (.inr rfl)
  have hpermuted : Respelling (.node .expr) (.ofMembers [kind, name]) (.ofMembers [name, kind]) :=
    .permuted (hvar (.inr rfl)) (hvar (.inr rfl)) (.swap _ _ _)
  have hunknown : Respelling (.node .expr) (.ofMembers ([name] ++ [kind]))
      (.ofMembers ([name] ++ line :: [kind])) :=
    .unknown (hvar (.inr rfl)) (hvar (.inr rfl)) rfl
  have hwritten : Respelling (.node .stmt) (.returnSample [] [name, line, kind])
      (.returnSample [span] [name, line, kind]) :=
    .written (hstmt _) (hplaced _) rfl rfl (by decide)
  have h : Relation.EqvGen (Respelling (.node .module)) v v' :=
    .trans _ _ _
      (.rel _ _ (Respelling.bodySample (.inside (hstmt _) (hstmt _) rfl hpermuted)
        (by decide) (by decide)))
      (.trans _ _ _
        (.rel _ _ (Respelling.bodySample (.inside (hstmt _) (hstmt _) rfl hunknown)
          (by decide) (by decide)))
        (.rel _ _ (hwritten.bodySample (by decide) (by decide))))
  have htext : Json.IsTextOf v.pretty.toList v :=
    Json.isTextOf_pretty fun _ hn => absurd hn (List.not_mem_nil)
  have htext' : Json.IsTextOf v'.pretty.toList v' := by
    have hnumbers : v'.numbers = [.ofNat 0, .ofNat 0, .ofNat 3] := rfl
    refine Json.isTextOf_pretty ?_
    simp [Json.AreNumbers, hnumbers, NumberLiteral.text_ofNat]
  obtain ⟨hread, hparse⟩ := document_respelled h
  exact ⟨h, rfl, hread, hparse _ _ _ htext htext'⟩

end KernelCheck
