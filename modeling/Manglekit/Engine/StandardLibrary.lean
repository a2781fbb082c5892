import Manglekit.Engine.CommentStripping
import Mathlib.Data.List.Infix

/-!
# Merging the standard library

A reload puts the standard library in front of the caller's program and leaves out what the
caller declares and what is registered as an external predicate.  What the caller declares
is found by a regular expression over the lines of the text, and what is left out is found
line by line in the file.  Every statement of the file is a line of its own, so the file
itself is always filtered as meant; the caller's text need not be laid out that way.
-/

namespace Manglekit.Engine

open Core

/-! ## The file -/

inductive StdContent where
  | decl (symbol : Datalog.PredicateSym)
  | clause (clause : SourceClause)
  deriving DecidableEq, Repr

structure StdStatement where
  text : String
  content : StdContent
  deriving DecidableEq, Repr

inductive StdLine where
  | remark (text : String)
  | statement (statement : StdStatement)
  deriving DecidableEq, Repr

def stdDecl (text symbol : String) (arity : Nat) : StdLine :=
  .statement ⟨text, .decl ⟨symbol, arity⟩⟩

def overVars (symbol : String) (vars : List String) : Datalog.Atom := ⟨symbol, vars.map .var⟩

def stdRule (text : String) (head body : Datalog.Atom) : StdLine :=
  .statement ⟨text, .clause { head := head, premises := [.atom body] }⟩

/-- The lines of `std.dl`. -/
def stdFile : List StdLine :=
  [.remark "% --- Manglekit Standard Library (v2.0) ---",
   .remark "% Auto-loaded on engine startup.",
   .remark "",
   .remark "% ==========================================",
   .remark "% 1. DATA REFLECTION (DO NOT REMOVE)",
   .remark "% These predicates allow the engine to read JSON inputs and Graph data.",
   .remark "% ==========================================",
   .remark "",
   .remark "% JSON Primitives (Flattened)",
   stdDecl "Decl json_str(Parent, Key, Val)." "json_str" 3,
   stdDecl "Decl json_num(Parent, Key, Val)." "json_num" 3,
   stdDecl "Decl json_bool(Parent, Key, Val)." "json_bool" 3,
   stdDecl "Decl json_link(Parent, Key, Child)." "json_link" 3,
   stdDecl "Decl json_null(Parent, Key)." "json_null" 2,
   .remark "",
   .remark "% Knowledge Graph Primitives (N-Quads/Triples)",
   stdDecl "Decl quad(S, P, O, G)." "quad" 4,
   stdDecl "Decl triple(S, P, O)." "triple" 3,
   stdRule "triple(S, P, O) :- quad(S, P, O, _)."
    (overVars "triple" ["S", "P", "O"]) (overVars "quad" ["S", "P", "O", "_"]),
   .remark "",
   .remark "% ==========================================",
   .remark "% 2. SYSTEM CONTROL (Standard Vocabulary)",
   .remark "% ==========================================",
   .remark "",
   .remark "% Arity 1: Global/Single-Context (JSON) ",
   stdDecl "Decl deny(Reason). " "deny" 1,
   stdDecl "Decl halt(Reason)." "halt" 1,
   stdDecl "Decl route(NextStep). " "route" 1,
   stdDecl "Decl retry(Feedback)." "retry" 1,
   .remark "",
   .remark "% Arity 2: Entity-Specific (Graph/Batch) ",
   .remark "% Allows pinning the decision to a specific node (Entity). ",
   stdDecl "Decl deny(Entity, Reason). " "deny" 2,
   stdDecl "Decl halt(Entity, Reason)." "halt" 2,
   stdDecl "Decl route(Entity, NextStep). " "route" 2,
   stdDecl "Decl retry(Entity, Feedback)." "retry" 2,
   .remark "",
   .remark "% Arity 3: Tier-Attributed (Governance)",
   .remark "% The third argument is the governance tier (T0, T1, T2, T3).",
   .remark "% The solver queries this form first to resolve tier-aware conflicts.",
   .remark "% Rules using halt/3 are resolved by tier priority: T0 > T1 > T2 > T3.",
   stdDecl "Decl deny(Entity, Reason, Tier)." "deny" 3,
   stdDecl "Decl halt(Entity, Reason, Tier)." "halt" 3,
   stdDecl "Decl route(Entity, NextStep, Tier)." "route" 3,
   stdDecl "Decl retry(Entity, Feedback, Tier)." "retry" 3,
   .remark "",
   .remark "% Config is always Key-Value (Arity 2) or Entity-Key-Value (Arity 3) ",
   stdDecl "Decl config(Key, Value). " "config" 2,
   stdDecl "Decl config(Entity, Key, Value)." "config" 3,
   .remark "",
   .remark "% Semantic Alias for backward compatibility",
   stdRule "halt(Reason) :- deny(Reason)."
    (overVars "halt" ["Reason"]) (overVars "deny" ["Reason"]),
   stdRule "halt(Entity, Reason) :- deny(Entity, Reason)."
    (overVars "halt" ["Entity", "Reason"]) (overVars "deny" ["Entity", "Reason"]),
   stdRule "halt(Entity, Reason, Tier) :- deny(Entity, Reason, Tier)."
    (overVars "halt" ["Entity", "Reason", "Tier"]) (overVars "deny" ["Entity", "Reason", "Tier"]),
   .remark "",
   .remark "% ==========================================",
   .remark "% 3. CONTEXT INJECTION",
   .remark "% These predicates are injected by the runtime environment.",
   .remark "% ==========================================",
   .remark "",
   stdDecl "Decl attempt(N).            % Current retry count (0, 1, 2...)." "attempt" 1,
   stdDecl
    "Decl meta(Key, Value).      % Envelope metadata (e.g., user_id, session_id)." "meta" 2,
   stdDecl
    "Decl label(Tag).            % Security taint labels (e.g., \"pii\", \"unsafe\")." "label" 1,
   stdDecl
    "Decl action_operation(Entity, Op). % Action being performed (e.g., action_operation(\"Req\", \"llm_generate\"))." "action_operation" 2,
   .remark "",
   .remark "% Telemetry Predicate (Arity 2: Entity, RuleID)",
   stdDecl "Decl violation_rule(Entity, RuleID)." "violation_rule" 2,
   .remark "",
   .remark "% ==========================================",
   .remark "% 4. AGGREGATION (Mangle v0.4.0+)",
   .remark "% Mangle supports aggregation using the |> syntax with fn: functions.",
   .remark "% Example usage in policies:",
   .remark "%",
   .remark "%   % Count action operations per entity",
   .remark "%   action_count(Entity, Count) :-",
   .remark "%     action_operation(Entity, _)",
   .remark "%     |> do fn:group_by(Entity),",
   .remark "%        let Count = fn:count().",
   .remark "%",
   .remark "%   % Sum numeric metadata values",
   .remark "%   total_cost(Entity, Total) :-",
   .remark "%     meta(Entity, Cost),",
   .remark "%     json_num(_, \"cost\", Cost)",
   .remark "%     |> do fn:group_by(Entity),",
   .remark "%        let Total = fn:sum(Cost).",
   .remark "%",
   .remark "% Available aggregation functions:",
   .remark "%   - fn:count()        : Count rows in group",
   .remark "%   - fn:sum(Column)   : Sum column values",
   .remark "%   - fn:group_by(Col) : Group by column",
   .remark "%   - fn:group_map()   : Create map during aggregation (v0.4.0+)",
   .remark "%",
   .remark "% Note: Aggregation requires Mangle v0.4.0+ and is evaluated at query time.",
   .remark "% ==========================================",
   .remark "",
   .remark "% ==========================================",
   .remark "% 5. TEMPORAL REASONING (NOT YET AVAILABLE)",
   .remark "% Mangle v0.4.0 does not yet include temporal reasoning features.",
   .remark "% The following is documented for when temporal support is added:",
   .remark "%",
   .remark "%   % Facts with time intervals (when available)",
   .remark "%   active_user(\"alice\")@[2024-01-01, 2024-06-15].",
   .remark "%",
   .remark "%   % Query: Was active in last 30 days",
   .remark "%   recent_activity(User) :-",
   .remark "%     <-[0d, 30d] active_user(User).",
   .remark "%",
   .remark "% Temporal operators:",
   .remark "%   <-[0d, 30d] : Was true sometime in past (diamond-minus)",
   .remark "%   -[0d, 30d]  : Was true continuously in past (box-minus)",
   .remark "%   <+[0d, 30d] : Will be true in future (diamond-plus)",
   .remark "%   +[0d, 30d]  : Will be true continuously in future (box-plus)",
   .remark "%",
   .remark "% Special values: _ (unbounded), now (current time)",
   .remark "%",
   .remark "% Note: Requires factstore.NewTemporalStore() which is not yet available.",
   .remark "% ==========================================",
   .remark "",
   .remark "% --- Helper: String Matching ---",
   .remark "",
   .remark "% input_contains(Req, Keyword)",
   .remark
    "% Checks if the input text payload contains the keyword (case-insensitive if supported).",
   .remark
    "% NOTE: fn:contains is not supported in Mangle v0.3.0, so this helper is currently disabled.",
   .remark "% input_contains(Req, Keyword) :-",
   .remark "%    value(Req, \"text\", Text),",
   .remark "%    fn:contains(Text, Keyword).",
   .remark ""]

def StdLine.text : StdLine → String
  | .remark text => text
  | .statement stated => stated.text

def StdLine.line (line : StdLine) : List Char := line.text.toList

def StdLine.statement? : StdLine → Option StdStatement
  | .remark _ => none
  | .statement stated => some stated

def stdLib : List Char := joinLines (stdFile.map StdLine.line)

def stdStatements : List StdStatement := stdFile.filterMap StdLine.statement?

/-- The statement without the comment behind it. -/
def StdStatement.code (statement : StdStatement) : List Char :=
  stripComment none false statement.text.toList

def StdContent.decl? : StdContent → Option Datalog.PredicateSym
  | .decl symbol => some symbol
  | .clause _ => none

def StdContent.clause? : StdContent → Option SourceClause
  | .decl _ => none
  | .clause rule => some rule

def unitOf (statements : List StdStatement) : SourceUnit where
  clauses := statements.filterMap (·.content.clause?)
  decls := statements.filterMap (·.content.decl?)

def stdUnit : SourceUnit := unitOf stdStatements

def SourceUnit.append (first second : SourceUnit) : SourceUnit :=
  ⟨first.clauses ++ second.clauses, first.decls ++ second.decls⟩

/-- Whether a statement gives way to declarations of the caller or to an external
predicate. -/
def StdContent.givesWay (declared : List Datalog.PredicateSym) (names : List String) :
    StdContent → Bool
  | .decl symbol => declared.contains symbol || names.contains symbol.symbol
  | .clause rule => names.contains rule.head.symbol

def StdLine.givesWay (declared : List Datalog.PredicateSym) (names : List String) :
    StdLine → Bool
  | .remark _ => false
  | .statement stated => stated.content.givesWay declared names

def keptStatements (declared : List Datalog.PredicateSym) (names : List String) :
    List StdStatement :=
  stdStatements.filter fun statement => !statement.content.givesWay declared names

/-- What the line scanners make of a line is what the line says, and a statement ends on
its line. -/
def StdLine.readsAs (line : StdLine) (chars : List Char) : Bool :=
  let trimmed := trimSpace chars
  '\n' ∉ chars && '\r' ∉ chars &&
    match line with
    | .remark _ =>
      cleanLine chars = none && !"Decl ".toList.isPrefixOf trimmed &&
        (isCommentLine trimmed || readHead trimmed = none)
    | .statement ⟨_, .decl symbol⟩ =>
      cleanLine chars = some (stripComment none false chars) &&
        endsStatement trimmed && "Decl ".toList.isPrefixOf trimmed &&
        declSym trimmed = some symbol
    | .statement ⟨_, .clause rule⟩ =>
      cleanLine chars = some (stripComment none false chars) &&
        endsStatement trimmed && !"Decl ".toList.isPrefixOf trimmed &&
        !isCommentLine trimmed &&
        (readHead trimmed).map (String.ofList ·.1) = some rule.head.symbol

variable {line : StdLine} {lines : List (List Char)}

theorem StdLine.readsAs_line {chars : List Char} (spelled : line.text = String.ofList chars)
    (right : line.readsAs chars = true) : line.readsAs line.line = true := by
  rw [StdLine.line, spelled, String.toList_ofList, right]

theorem stdFile_readsAs : ∀ line ∈ stdFile, line.readsAs line.line = true := by
  unfold stdFile
  repeat'
    first
    | exact List.forall_mem_nil _
    | refine List.forall_mem_cons.mpr ⟨StdLine.readsAs_line rfl (by decide +kernel), ?_⟩

theorem decls_nodup : stdUnit.decls.Nodup := by decide +kernel

/-! ## What is kept of it -/

section Filtering

variable {line : StdLine} (declared : List Datalog.PredicateSym) (names : List String)

theorem StdLine.isDropped_eq (right : line.readsAs line.line = true) :
    isDropped declared names (trimSpace line.line) = line.givesWay declared names := by
  unfold StdLine.readsAs at right
  cases line with
  | remark text =>
    simp only [Bool.and_eq_true, Bool.not_eq_true', Bool.or_eq_true, decide_eq_true_eq] at right
    obtain ⟨-, ⟨-, notDecl⟩, comment | noHead⟩ := right
    · rw [isDropped, notDecl]
      simp [comment, StdLine.givesWay]
    · rw [isDropped, notDecl]
      simp [noHead, StdLine.givesWay]
  | statement stated =>
    obtain ⟨text, content⟩ := stated
    cases content with
    | decl symbol =>
      simp only [Bool.and_eq_true, decide_eq_true_eq] at right
      obtain ⟨-, ⟨-, isDecl⟩, declares⟩ := right
      rw [isDropped, isDecl]
      simp [declares, StdLine.givesWay, StdContent.givesWay]
    | clause rule =>
      simp only [Bool.and_eq_true, Bool.not_eq_true', decide_eq_true_eq] at right
      obtain ⟨-, ⟨⟨-, notDecl⟩, notComment⟩, heads⟩ := right
      obtain ⟨⟨ident, rest⟩, read, named⟩ := Option.map_eq_some_iff.mp heads
      rw [isDropped, notDecl]
      cases names <;> simp [notComment, read, named, StdLine.givesWay, StdContent.givesWay]

theorem StdLine.endsStatement_of_givesWay (right : line.readsAs line.line = true)
    (givesWay : line.givesWay declared names = true) :
    endsStatement (trimSpace line.line) = true := by
  unfold StdLine.readsAs at right
  cases line with
  | remark text => simp [StdLine.givesWay] at givesWay
  | statement stated =>
    obtain ⟨text, content⟩ := stated
    cases content <;> grind

theorem filterStdLib_map {lines : List StdLine}
    (right : ∀ line ∈ lines, line.readsAs line.line = true) :
    filterStdLib declared names false (lines.map StdLine.line) =
      (lines.filter fun line => !line.givesWay declared names).map StdLine.line := by
  induction lines with
  | nil => rfl
  | cons line rest ih =>
    obtain ⟨headRight, restRight⟩ := List.forall_mem_cons.mp right
    rw [List.map_cons, filterStdLib, StdLine.isDropped_eq declared names headRight]
    by_cases givesWay : line.givesWay declared names = true
    · have ends := StdLine.endsStatement_of_givesWay declared names headRight givesWay
      simp [givesWay, ends, ih restRight]
    · simp [givesWay, ih restRight]

end Filtering

theorem normalizeNewlines_of_plain {text : List Char} (plain : '\r' ∉ text) :
    normalizeNewlines text = text := by
  fun_induction normalizeNewlines text with
  | case1 => rfl
  | case2 rest => simp at plain
  | case3 char rest differs ih => rw [ih (by grind)]

/-- The lines of a text that hold code, without their comments. -/
def codeLines (text : List Char) : List (List Char) :=
  (splitLines (normalizeNewlines text)).filterMap cleanLine

theorem codeLines_append {line : List Char} (single : '\n' ∉ line) (plain : '\r' ∉ line)
    (rest : List Char) :
    codeLines (line ++ '\n' :: rest) = (cleanLine line).toList ++ codeLines rest := by
  have lastPlain : line.getLast? ≠ some '\r' := fun ends => plain (List.mem_of_getLast? ends)
  rw [codeLines, normalizeNewlines_append lastPlain, normalizeNewlines_of_plain plain,
    splitLines_eq_splitOn, List.splitOn_append_cons_self, List.splitOn_eq_singleton single,
    ← splitLines_eq_splitOn, List.singleton_append, List.filterMap_cons]
  cases cleanLine line <;> rfl

theorem StdLine.cleanLine_eq (right : line.readsAs line.line = true) :
    cleanLine line.line = line.statement?.map StdStatement.code := by
  unfold StdLine.readsAs at right
  cases line with
  | remark text =>
    simp only [Bool.and_eq_true, decide_eq_true_eq] at right
    exact right.2.1.1
  | statement stated =>
    obtain ⟨text, content⟩ := stated
    cases content with
    | decl symbol =>
      simp only [Bool.and_eq_true, decide_eq_true_eq] at right
      exact right.2.1.1.1
    | clause rule =>
      simp only [Bool.and_eq_true, decide_eq_true_eq] at right
      exact right.2.1.1.1.1

theorem StdLine.single_plain (right : line.readsAs line.line = true) :
    '\n' ∉ line.line ∧ '\r' ∉ line.line := by
  unfold StdLine.readsAs at right
  simp only [Bool.and_eq_true, decide_eq_true_eq] at right
  exact right.1

theorem codeLines_flatMap {lines : List StdLine}
    (right : ∀ line ∈ lines, line.readsAs line.line = true) (rest : List Char) :
    codeLines ((lines.map StdLine.line).flatMap (· ++ ['\n']) ++ rest) =
      (lines.filterMap StdLine.statement?).map StdStatement.code ++ codeLines rest := by
  induction lines with
  | nil => rfl
  | cons line others ih =>
    obtain ⟨headRight, othersRight⟩ := List.forall_mem_cons.mp right
    rw [List.map_cons, List.flatMap_cons, List.append_assoc, List.append_assoc,
      List.singleton_append, codeLines_append (StdLine.single_plain headRight).1
        (StdLine.single_plain headRight).2, StdLine.cleanLine_eq headRight,
      ih othersRight]
    cases line <;> rfl

theorem joinLines_newline (nonempty : lines ≠ []) :
    joinLines lines ++ ['\n'] = lines.flatMap (· ++ ['\n']) := by
  induction lines with
  | nil => exact absurd rfl nonempty
  | cons line rest ih =>
    cases rest with
    | nil => simp [joinLines]
    | cons next others =>
      rw [List.flatMap_cons, ← ih (by simp)]
      simp [joinLines, List.intercalate_cons_cons]

section Merging

variable (source : List Char) (declared : List Datalog.PredicateSym) (names : List String)

def keptFile : List StdLine := stdFile.filter fun line => !line.givesWay declared names

theorem filterMap_keptFile :
    (keptFile declared names).filterMap StdLine.statement? = keptStatements declared names := by
  rw [keptFile, keptStatements, stdStatements, List.filterMap_filter, List.filter_filterMap]
  refine List.filterMap_congr fun line _ => ?_
  cases line <;> simp [StdLine.givesWay, StdLine.statement?, Option.filter]

theorem keptFile_readsAs : ∀ line ∈ keptFile declared names, line.readsAs line.line = true :=
  fun line kept => stdFile_readsAs line (List.mem_of_mem_filter kept)

theorem prependStdLibIfMissing_eq :
    prependStdLibIfMissing stdLib source declared names =
      ((keptFile declared names).map StdLine.line).flatMap (· ++ ['\n']) ++ source := by
  have nonempty : stdFile.map StdLine.line ≠ [] := by simp [stdFile]
  have single : ∀ line ∈ stdFile.map StdLine.line, '\n' ∉ line := by
    intro line member
    obtain ⟨stdLine, inFile, rfl⟩ := List.mem_map.mp member
    exact (StdLine.single_plain (stdFile_readsAs stdLine inFile)).1
  unfold prependStdLibIfMissing
  split
  next alone =>
    simp only [Bool.and_eq_true, decide_eq_true_eq] at alone
    obtain ⟨rfl, rfl⟩ := alone
    have all : keptFile [] [] = stdFile := by
      refine List.filter_eq_self.mpr fun line _ => ?_
      rcases line with text | ⟨text, symbol | rule⟩ <;> simp [StdLine.givesWay, StdContent.givesWay]
    rw [all, stdLib, ← joinLines_newline nonempty]
    simp
  · rw [stdLib, splitLines_joinLines nonempty single,
      filterStdLib_map declared names stdFile_readsAs, keptFile]

/-- The text that is parsed: the statements kept of the file, then the code of the
caller's text, with a byte order mark that the caller's text starts with. -/
theorem cleanSource_merged :
    cleanSource (prependStdLibIfMissing stdLib source declared names) =
      joinLines ((keptStatements declared names).map StdStatement.code ++ codeLines source) := by
  have opens : ∃ rest, prependStdLibIfMissing stdLib source declared names = '%' :: rest := by
    rw [prependStdLibIfMissing_eq]
    exact ⟨_, rfl⟩
  have unmarked : stripBOM (prependStdLibIfMissing stdLib source declared names) =
      prependStdLibIfMissing stdLib source declared names := by
    obtain ⟨rest, starts⟩ := opens
    rw [starts]
    rfl
  rw [cleanSource, unmarked, prependStdLibIfMissing_eq, ← filterMap_keptFile,
    ← codeLines_flatMap (keptFile_readsAs declared names), codeLines]

end Merging

/-! ## The merged program -/

/-- Whether a program starts with a header: a package and its uses stand before every
statement. -/
def opensPackage : List (List Char) → Bool
  | [] => false
  | line :: _ => (trimSpace line).takeWhile isIdentPart ∈ ["Package".toList, "Use".toList]

/-- What is known of the parser: statements of the file in front of a program are read as
those statements and then the program; a header after a statement and a byte order mark
are errors. -/
structure ReadsStdLib (parseUnit : List Char → Except GoError SourceUnit) : Prop where
  statements : ∀ kept lines own, List.Sublist kept stdStatements →
    (∀ line ∈ lines, '\n' ∉ line) → opensPackage lines = false →
    parseUnit (joinLines lines) = .ok own →
    parseUnit (joinLines (kept.map StdStatement.code ++ lines)) = .ok ((unitOf kept).append own)
  package : ∀ kept lines, List.Sublist kept stdStatements → kept ≠ [] →
    (∀ line ∈ lines, '\n' ∉ line) → opensPackage lines = true →
    ∃ err, parseUnit (joinLines (kept.map StdStatement.code ++ lines)) = .error err
  mark : ∀ kept line lines, List.Sublist kept stdStatements →
    (∀ other ∈ line :: lines, '\n' ∉ other) →
    ∃ err, parseUnit
      (joinLines (kept.map StdStatement.code ++ ('\ufeff' :: line) :: lines)) = .error err

/-- The text whose lines are searched for declarations: the caller's, and those of the
units that stay loaded. -/
def scannedText (source : List Char) (persistentSources : List (List Char)) : List Char :=
  source ++ '\n' :: joinLines persistentSources

def mergedText (source : List Char) (persistentSources : List (List Char))
    (names : List String) : List Char :=
  cleanSource (prependStdLibIfMissing stdLib source
    (collectCallerDecls (scannedText source persistentSources)) names)

/-- What of the file is in the merged program, next to the symbols that are declared
without it. -/
structure Collisionless (declared : List Datalog.PredicateSym) (names : List String)
    (fromStd : SourceUnit) : Prop where
  distinct : (fromStd.decls ++ declared).Nodup
  notDeclared : ∀ symbol ∈ fromStd.decls, symbol.symbol ∉ names
  notDefined : ∀ clause ∈ fromStd.clauses, clause.head.symbol ∉ names
  keepsDecls : ∀ symbol ∈ stdUnit.decls, symbol.symbol ∉ names → symbol ∉ declared →
    symbol ∈ fromStd.decls
  keepsClauses : ∀ clause ∈ stdUnit.clauses, clause.head.symbol ∉ names →
    clause ∈ fromStd.clauses

section Merged

variable (parseUnit : List Char → Except GoError SourceUnit) (source : List Char)
  (persistentSources : List (List Char)) (persistentUnits : List SourceUnit)
  (names : List String) (own : SourceUnit)

def declaredWith : List Datalog.PredicateSym := own.decls ++ persistentUnits.flatMap (·.decls)

def MergesCleanly : Prop :=
  ∃ fromStd, parseUnit (mergedText source persistentSources names) =
      .ok (SourceUnit.append fromStd own) ∧
    Collisionless (declaredWith persistentUnits own) names fromStd

/-- Every declaration of the file that is not for an external predicate is made by the
caller exactly if one of the lines shows it. -/
def ShowsDecls : Prop :=
  ∀ symbol ∈ stdUnit.decls, symbol.symbol ∉ names →
    (symbol ∈ declaredWith persistentUnits own ↔
      ∃ line ∈ splitLines (scannedText source persistentSources),
        declSym (trimSpace line) = some symbol)

def NothingMissing : Prop :=
  ∀ statement ∈ stdStatements,
    statement.content.givesWay (declaredWith persistentUnits own) names = true

end Merged

section Kept

variable {declared : List Datalog.PredicateSym} {names : List String}

theorem mem_kept_decls {symbol : Datalog.PredicateSym} :
    symbol ∈ (unitOf (keptStatements declared names)).decls ↔
      symbol ∈ stdUnit.decls ∧ symbol ∉ declared ∧ symbol.symbol ∉ names := by
  simp only [stdUnit, unitOf, keptStatements, List.mem_filterMap, List.mem_filter]
  constructor
  · rintro ⟨⟨text, content⟩, ⟨member, kept⟩, declares⟩
    refine ⟨⟨⟨text, content⟩, member, declares⟩, ?_⟩
    cases content with
    | decl other =>
      cases declares
      simpa [StdContent.givesWay] using kept
    | clause rule => cases declares
  · rintro ⟨⟨⟨text, content⟩, member, declares⟩, free⟩
    refine ⟨⟨text, content⟩, ⟨member, ?_⟩, declares⟩
    cases content with
    | decl other =>
      cases declares
      simpa [StdContent.givesWay] using free
    | clause rule => cases declares

theorem mem_kept_clauses {clause : SourceClause} :
    clause ∈ (unitOf (keptStatements declared names)).clauses ↔
      clause ∈ stdUnit.clauses ∧ clause.head.symbol ∉ names := by
  simp only [stdUnit, unitOf, keptStatements, List.mem_filterMap, List.mem_filter]
  constructor
  · rintro ⟨⟨text, content⟩, ⟨member, kept⟩, states⟩
    refine ⟨⟨⟨text, content⟩, member, states⟩, ?_⟩
    cases content with
    | decl symbol => cases states
    | clause rule =>
      cases states
      simpa [StdContent.givesWay] using kept
  · rintro ⟨⟨⟨text, content⟩, member, states⟩, free⟩
    refine ⟨⟨text, content⟩, ⟨member, ?_⟩, states⟩
    cases content with
    | decl symbol => cases states
    | clause rule =>
      cases states
      simpa [StdContent.givesWay] using free

theorem keptStatements_sublist : List.Sublist (keptStatements declared names) stdStatements :=
  List.filter_sublist

theorem kept_decls_nodup : (unitOf (keptStatements declared names)).decls.Nodup :=
  decls_nodup.sublist (List.Sublist.filterMap _ keptStatements_sublist)

variable {actual : List Datalog.PredicateSym}

/-- The part kept of the file collides with nothing if the symbols found by the scan are
the declared ones, as far as the file declares them. -/
theorem collisionless_kept_iff (distinct : actual.Nodup) :
    Collisionless actual names (unitOf (keptStatements declared names)) ↔
      ∀ symbol ∈ stdUnit.decls, symbol.symbol ∉ names → (symbol ∈ actual ↔ symbol ∈ declared) := by
  constructor
  · intro clean symbol inFile free
    have disjoint := List.disjoint_of_nodup_append clean.distinct
    constructor
    · intro declares
      by_contra unseen
      exact disjoint (mem_kept_decls.mpr ⟨inFile, unseen, free⟩) declares
    · intro seen
      by_contra missing
      exact (mem_kept_decls.mp (clean.keepsDecls symbol inFile free missing)).2.1 seen
  · intro agree
    refine ⟨?_, ?_, ?_, ?_, ?_⟩
    · refine kept_decls_nodup.append distinct fun symbol kept declares => ?_
      obtain ⟨inFile, unseen, free⟩ := mem_kept_decls.mp kept
      exact unseen ((agree symbol inFile free).mp declares)
    · exact fun symbol kept => (mem_kept_decls.mp kept).2.2
    · exact fun clause kept => (mem_kept_clauses.mp kept).2
    · intro symbol inFile free missing
      exact mem_kept_decls.mpr
        ⟨inFile, fun seen => missing ((agree symbol inFile free).mpr seen), free⟩
    · exact fun clause inFile free => mem_kept_clauses.mpr ⟨inFile, free⟩

theorem keptStatements_eq_nil_iff (agree : ∀ symbol ∈ stdUnit.decls, symbol.symbol ∉ names →
      (symbol ∈ actual ↔ symbol ∈ declared)) :
    keptStatements declared names = [] ↔
      ∀ statement ∈ stdStatements, statement.content.givesWay actual names = true := by
  simp only [keptStatements, List.filter_eq_nil_iff, Bool.not_eq_true, Bool.not_eq_false']
  refine forall₂_congr fun statement member => ?_
  cases contents : statement.content with
  | clause rule => rfl
  | decl symbol =>
    have inFile : symbol ∈ stdUnit.decls :=
      List.mem_filterMap.mpr ⟨statement, member, by rw [contents]; rfl⟩
    have agrees := agree symbol inFile
    simp only [StdContent.givesWay, Bool.or_eq_true, List.contains_iff_mem]
    grind

end Kept

theorem SourceUnit.append_left_cancel {first second own : SourceUnit}
    (same : first.append own = second.append own) : first = second := by
  obtain ⟨firstClauses, firstDecls⟩ := first
  obtain ⟨secondClauses, secondDecls⟩ := second
  simpa [SourceUnit.append] using same

theorem newline_not_mem_codeLines {text line : List Char} (member : line ∈ codeLines text) :
    '\n' ∉ line := by
  obtain ⟨whole, inText, cleaned⟩ := List.mem_filterMap.mp member
  unfold cleanLine at cleaned
  simp only at cleaned
  split at cleaned
  · cases cleaned
  · split at cleaned
    · cases cleaned
    · cases cleaned
      exact fun newline => newline_not_mem_of_mem_splitLines inText
        ((stripComment_isPrefix none false whole).subset newline)

theorem codeLines_mark (rest : List Char) :
    ∃ line lines, codeLines ('\ufeff' :: rest) = ('\ufeff' :: line) :: lines := by
  have normalized : normalizeNewlines ('\ufeff' :: rest) = '\ufeff' :: normalizeNewlines rest :=
    normalizeNewlines.eq_3 '\ufeff' rest fun _ isReturn => absurd isReturn (by decide)
  have split : ∃ line lines,
      splitLines ('\ufeff' :: normalizeNewlines rest) = ('\ufeff' :: line) :: lines := by
    rw [splitLines, if_neg (by decide)]
    cases splitLines (normalizeNewlines rest) with
    | nil => exact ⟨[], [], rfl⟩
    | cons line lines => exact ⟨line, lines, rfl⟩
  obtain ⟨line, lines, split⟩ := split
  have cleaned : cleanLine ('\ufeff' :: line) =
      some ('\ufeff' :: stripComment (some '\ufeff') false line) := by
    obtain ⟨trimmed, starts⟩ := trimSpace_cons '\ufeff' (by decide) line
    obtain ⟨kept, keptStarts⟩ := trimSpace_cons '\ufeff' (by decide)
      (stripComment (some '\ufeff') false line)
    simp [cleanLine, starts, isCommentLine, List.isPrefixOf, stripComment, keptStarts]
  refine ⟨stripComment (some '\ufeff') false line, lines.filterMap cleanLine, ?_⟩
  rw [codeLines, normalized, split, List.filterMap_cons_some cleaned]

section Main

variable {parseUnit : List Char → Except GoError SourceUnit} (reads : ReadsStdLib parseUnit)
  {source : List Char} (persistentSources : List (List Char)) (names : List String)
  {own : SourceUnit}
include reads

theorem parseUnit_mergedText (valid : parseUnit (cleanSource source) = .ok own)
    (merged : SourceUnit) :
    parseUnit (mergedText source persistentSources names) = .ok merged ↔
      source.head? ≠ some '\ufeff' ∧
        (opensPackage (codeLines source) = true →
          keptStatements (collectCallerDecls (scannedText source persistentSources)) names = []) ∧
        merged = (unitOf (keptStatements
          (collectCallerDecls (scannedText source persistentSources)) names)).append own := by
  rw [mergedText, cleanSource_merged]
  generalize collectCallerDecls (scannedText source persistentSources) = declared
  have kept : List.Sublist (keptStatements declared names) stdStatements := keptStatements_sublist
  by_cases marked : source.head? = some '\ufeff'
  · obtain ⟨rest, rfl⟩ := List.head?_eq_some_iff.mp marked
    obtain ⟨line, lines, starts⟩ := codeLines_mark rest
    have single : ∀ other ∈ line :: lines, '\n' ∉ other := by
      intro other member
      rcases List.mem_cons.mp member with rfl | later
      · have whole := newline_not_mem_codeLines (starts ▸ List.mem_cons_self)
        exact fun newline => whole (List.mem_cons_of_mem _ newline)
      · exact newline_not_mem_codeLines (starts ▸ List.mem_cons_of_mem _ later)
    obtain ⟨err, fails⟩ := reads.mark _ line lines kept single
    simp [starts, fails, marked]
  · have unmarked : cleanSource source = joinLines (codeLines source) := by
      have same : stripBOM source = source := by
        unfold stripBOM
        split
        · simp at marked
        · rfl
      rw [cleanSource, same, codeLines]
    rw [unmarked] at valid
    have single : ∀ line ∈ codeLines source, '\n' ∉ line :=
      fun _ member => newline_not_mem_codeLines member
    by_cases headed : opensPackage (codeLines source) = true
    · by_cases nothing : keptStatements declared names = []
      · have empty (unit : SourceUnit) : (unitOf []).append unit = unit := rfl
        rw [nothing, List.map_nil, List.nil_append, valid, empty, Except.ok.injEq, eq_comm]
        simp [marked]
      · obtain ⟨err, fails⟩ := reads.package _ _ kept nothing single headed
        simp [fails, headed, nothing]
    · have parsed := reads.statements _ _ _ kept single (by simpa using headed) valid
      rw [parsed, Except.ok.injEq, eq_comm]
      simp [marked, headed]

omit reads in
theorem mem_collectCallerDecls (symbol : Datalog.PredicateSym) (text : List Char) :
    symbol ∈ collectCallerDecls text ↔
      ∃ line ∈ splitLines text, declSym (trimSpace line) = some symbol := by
  rw [collectCallerDecls, List.mem_filterMap]

theorem showsDecls_of_mergesCleanly (valid : parseUnit (cleanSource source) = .ok own)
    {persistentUnits : List SourceUnit} (distinct : (declaredWith persistentUnits own).Nodup)
    (clean : MergesCleanly parseUnit source persistentSources persistentUnits names own) :
    source.head? ≠ some '\ufeff' ∧
      (opensPackage (codeLines source) = true → NothingMissing persistentUnits names own) ∧
      ShowsDecls source persistentSources persistentUnits names own := by
  obtain ⟨fromStd, parsed, collisionless⟩ := clean
  obtain ⟨unmarked, headed, same⟩ :=
    (parseUnit_mergedText reads persistentSources names valid _).mp parsed
  cases SourceUnit.append_left_cancel same
  have agree := (collisionless_kept_iff distinct).mp collisionless
  refine ⟨unmarked, fun opens => (keptStatements_eq_nil_iff agree).mp (headed opens), ?_⟩
  simpa only [ShowsDecls, mem_collectCallerDecls] using agree

/-- The merge collides with nothing exactly if the caller's text does not start with a byte
order mark, has a header only where nothing of the file is missing, and shows each
declaration that the file also makes at the start of a line. -/
theorem merge_clean_iff (valid : parseUnit (cleanSource source) = .ok own)
    (persistentUnits : List SourceUnit) (distinct : (declaredWith persistentUnits own).Nodup) :
    MergesCleanly parseUnit source persistentSources persistentUnits names own ↔
      source.head? ≠ some '\ufeff' ∧
        (opensPackage (codeLines source) = true → NothingMissing persistentUnits names own) ∧
        ShowsDecls source persistentSources persistentUnits names own := by
  constructor
  · exact showsDecls_of_mergesCleanly reads persistentSources names valid distinct
  · rintro ⟨unmarked, headed, agree⟩
    simp only [ShowsDecls, ← mem_collectCallerDecls] at agree
    refine ⟨_, (parseUnit_mergedText reads persistentSources names valid _).mpr
      ⟨unmarked, fun opens => ?_, rfl⟩, (collisionless_kept_iff distinct).mpr agree⟩
    exact (keptStatements_eq_nil_iff agree).mpr (headed opens)

end Main

/-! ## A reader of declarations and rules -/

def readAtom (text : List Char) : Option Datalog.Atom := do
  let (ident, rest) ← readHead text
  let args := (rest.takeWhile (· ≠ ')')).splitOn ','
  return overVars (String.ofList ident) (args.map fun arg => String.ofList (trimSpace arg))

def readRule (text : List Char) : Option SourceClause := do
  let head ← readAtom (text.takeWhile (· ≠ ':'))
  match text.dropWhile (· ≠ ':') with
  | ':' :: '-' :: body => do
    let premise ← readAtom body
    return { head := head, premises := [.atom premise] }
  | _ => none

def readStatement (text : List Char) : Except GoError SourceUnit :=
  if trimSpace text = [] then .ok ⟨[], []⟩
  else
    match declSym text, readRule text with
    | some symbol, _ => .ok ⟨[], [symbol]⟩
    | none, some rule => .ok ⟨[rule], []⟩
    | none, none => .error (.text "syntax error")

def readAll (read : List Char → Except GoError SourceUnit) :
    List (List Char) → Except GoError SourceUnit
  | [] => .ok ⟨[], []⟩
  | text :: rest => do
    let first ← read text
    let others ← readAll read rest
    return first.append others

def readLine (line : List Char) : Except GoError SourceUnit :=
  match (trimSpace line).head? with
  | none => .ok ⟨[], []⟩
  | some first =>
    if first = 'D' || first.isLower then readAll readStatement (line.splitOn '.')
    else .error (.text "syntax error")

def readUnit (text : List Char) : Except GoError SourceUnit :=
  readAll readLine (splitLines text)

theorem readUnit_joinLines (single : ∀ line ∈ lines, '\n' ∉ line) :
    readUnit (joinLines lines) = readAll readLine lines := by
  cases lines with
  | nil => rfl
  | cons line rest => rw [readUnit, splitLines_joinLines (by simp) single]

theorem readAll_append_error (read : List Char → Except GoError SourceUnit)
    (before : List (List Char)) {text : List Char} {err : GoError} (fails : read text = .error err)
    (rest : List (List Char)) : ∃ err, readAll read (before ++ text :: rest) = .error err := by
  induction before with
  | nil => exact ⟨err, by rw [List.nil_append, readAll, fails]; rfl⟩
  | cons first others ih =>
    obtain ⟨later, failed⟩ := ih
    rw [List.cons_append, readAll, failed]
    cases read first with
    | error early => exact ⟨early, rfl⟩
    | ok unit => exact ⟨later, rfl⟩

def StdLine.isRead (line : StdLine) (chars : List Char) : Bool :=
  match line with
  | .remark _ => true
  | .statement stated =>
    '\n' ∉ stripComment none false chars &&
      readLine (stripComment none false chars) = .ok (unitOf [stated])

theorem StdLine.isRead_line {chars : List Char} (spelled : line.text = String.ofList chars)
    (read : line.isRead chars = true) : line.isRead line.line = true := by
  rw [StdLine.line, spelled, String.toList_ofList, read]

theorem StdLine.isRead_remark (text : String) (chars : List Char) :
    (StdLine.remark text).isRead chars = true := rfl

theorem stdFile_isRead : ∀ line ∈ stdFile, line.isRead line.line = true := by
  unfold stdFile
  repeat'
    first
    | exact List.forall_mem_nil _
    | with_reducible refine List.forall_mem_cons.mpr ⟨StdLine.isRead_remark _ _, ?_⟩
    | refine List.forall_mem_cons.mpr ⟨StdLine.isRead_line rfl (by decide +kernel), ?_⟩

theorem readLine_code {statement : StdStatement} (member : statement ∈ stdStatements) :
    '\n' ∉ statement.code ∧ readLine statement.code = .ok (unitOf [statement]) := by
  obtain ⟨line, inFile, states⟩ := List.mem_filterMap.mp member
  cases line with
  | remark text => cases states
  | statement stated =>
    cases states
    have read := stdFile_isRead _ inFile
    simp only [StdLine.isRead, Bool.and_eq_true, decide_eq_true_eq] at read
    exact read

theorem readAll_kept {kept : List StdStatement}
    (members : ∀ statement ∈ kept, statement ∈ stdStatements) {own : SourceUnit}
    (read : readAll readLine lines = .ok own) :
    readAll readLine (kept.map StdStatement.code ++ lines) = .ok ((unitOf kept).append own) := by
  induction kept with
  | nil => exact read
  | cons statement rest ih =>
    obtain ⟨member, others⟩ := List.forall_mem_cons.mp members
    rw [List.map_cons, List.cons_append, readAll, (readLine_code member).2, ih others]
    have split : unitOf (statement :: rest) = (unitOf [statement]).append (unitOf rest) := by
      simp [unitOf, SourceUnit.append, List.filterMap_cons]
      cases statement.content <;> simp [StdContent.clause?, StdContent.decl?]
    rw [split]
    simp [SourceUnit.append, bind, Except.bind, pure, Except.pure]

theorem head?_of_opensPackage {line : List Char} {rest : List (List Char)}
    (headed : opensPackage (line :: rest) = true) :
    (trimSpace line).head? = some 'P' ∨ (trimSpace line).head? = some 'U' := by
  simp only [opensPackage] at headed
  cases trimmed : trimSpace line with
  | nil => simp [trimmed] at headed
  | cons first others =>
    rw [trimmed, List.takeWhile_cons] at headed
    split at headed
    · simp at headed
      rcases headed with ⟨rfl, -⟩ | ⟨rfl, -⟩ <;> simp
    · simp at headed

theorem readUnit_readsStdLib : ReadsStdLib readUnit := by
  have single {kept : List StdStatement} {lines : List (List Char)}
      (inFile : List.Sublist kept stdStatements) (plain : ∀ line ∈ lines, '\n' ∉ line) :
      ∀ line ∈ kept.map StdStatement.code ++ lines, '\n' ∉ line := by
    intro line member
    rcases List.mem_append.mp member with ofFile | ofText
    · obtain ⟨statement, isKept, rfl⟩ := List.mem_map.mp ofFile
      exact (readLine_code (inFile.subset isKept)).1
    · exact plain line ofText
  refine ⟨?_, ?_, ?_⟩
  · intro kept lines own inFile plain headless parsed
    rw [readUnit_joinLines plain] at parsed
    rw [readUnit_joinLines (single inFile plain)]
    exact readAll_kept (fun _ isKept => inFile.subset isKept) parsed
  · intro kept lines inFile _ plain headed
    rw [readUnit_joinLines (single inFile plain)]
    cases lines with
    | nil => cases headed
    | cons line rest =>
      have fails : readLine line = .error (.text "syntax error") := by
        have starts := head?_of_opensPackage headed
        rcases starts with starts | starts <;>
        · rw [readLine, starts]
          rfl
      exact readAll_append_error readLine _ fails rest
  · intro kept line lines inFile plain
    have fails : readLine ('\ufeff' :: line) = .error (.text "syntax error") := by
      obtain ⟨trimmed, starts⟩ := trimSpace_cons '\ufeff' (by decide) line
      rw [readLine, starts]
      rfl
    rw [readUnit_joinLines (single inFile ?_)]
    · exact readAll_append_error readLine _ fails lines
    · intro other member
      rcases List.mem_cons.mp member with rfl | later
      · have plainLine := plain line List.mem_cons_self
        simp [plainLine]
      · exact plain other (List.mem_cons_of_mem _ later)

instance (source : List Char) (persistentSources : List (List Char))
    (persistentUnits : List SourceUnit) (names : List String) (own : SourceUnit) :
    Decidable (ShowsDecls source persistentSources persistentUnits names own) :=
  inferInstanceAs (Decidable (∀ symbol ∈ stdUnit.decls, symbol.symbol ∉ names →
    (symbol ∈ declaredWith persistentUnits own ↔
      ∃ line ∈ splitLines (scannedText source persistentSources),
        declSym (trimSpace line) = some symbol)))

/-- A program with declarations of its own and one that the file makes as well. -/
def teamUnit : SourceUnit := ⟨[], [⟨"deny", 1⟩, ⟨"team", 1⟩]⟩

/-- The declarations on a line each, next to a registered `quad`. -/
theorem lines_merge_clean :
    readUnit (cleanSource "Decl deny(Reason).\nDecl team(Name).".toList) = .ok teamUnit ∧
      MergesCleanly readUnit "Decl deny(Reason).\nDecl team(Name).".toList [] [] ["quad"]
        teamUnit := by
  have valid : readUnit (cleanSource "Decl deny(Reason).\nDecl team(Name).".toList) =
      .ok teamUnit := by decide +kernel
  refine ⟨valid, (merge_clean_iff readUnit_readsStdLib [] ["quad"] valid [] (by decide)).mpr
    ⟨by decide +kernel, fun headed => ?_, by decide +kernel⟩⟩
  exact absurd headed (by decide +kernel)

/-- The same declarations on one line: the file's declaration of `deny` stays, so the
merged program declares it twice. -/
theorem line_merge_collides :
    readUnit (cleanSource "Decl team(Name). Decl deny(Reason).".toList) =
        .ok ⟨[], [⟨"team", 1⟩, ⟨"deny", 1⟩]⟩ ∧
      ¬ MergesCleanly readUnit "Decl team(Name). Decl deny(Reason).".toList [] [] []
        ⟨[], [⟨"team", 1⟩, ⟨"deny", 1⟩]⟩ := by
  have valid : readUnit (cleanSource "Decl team(Name). Decl deny(Reason).".toList) =
      .ok ⟨[], [⟨"team", 1⟩, ⟨"deny", 1⟩]⟩ := by decide +kernel
  have hidden : ¬ ShowsDecls "Decl team(Name). Decl deny(Reason).".toList [] [] []
      ⟨[], [⟨"team", 1⟩, ⟨"deny", 1⟩]⟩ := by decide +kernel
  refine ⟨valid, fun clean => hidden ?_⟩
  exact (showsDecls_of_mergesCleanly readUnit_readsStdLib [] [] valid (by decide) clean).2.2

end Manglekit.Engine
