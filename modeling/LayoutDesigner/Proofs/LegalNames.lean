import LayoutDesigner.Script.Highlight
import LayoutDesigner.Proofs.Rebuild

/-!
# Names of local variables

Every variable below the header is an identifier, and no name that the script relies on is taken
for it. A word of the language is no name for a variable either, but none is kept from being one:
where a node is called by such a word, a script that names its variables after the nodes declares
it.
-/

namespace LayoutDesigner

namespace CodePoint

/-- What is no capital letter stays in lower case. -/
theorem lowerAscii_of_not_capital {c : CodePoint} (small : ¬(0x41 ≤ c.val ∧ c.val ≤ 0x5A)) :
    c.lowerAscii = c := dif_neg small

/-- A letter, a digit or an underscore is one in lower case too. -/
theorem isAsciiWord_lowerAscii {c : CodePoint} (word : c.isAsciiWord) : c.lowerAscii.isAsciiWord := by
  by_cases capital : 0x41 ≤ c.val ∧ c.val ≤ 0x5A
  · rw [lowerAscii, dif_pos capital]
    simp only [isAsciiWord, isAsciiDigit, Bool.or_eq_true, Bool.and_eq_true, decide_eq_true_eq, beq_iff_eq]
    omega
  · rwa [lowerAscii_of_not_capital capital]

/-- In lower case the digits stay digits, and nothing else becomes one. -/
theorem isAsciiDigit_lowerAscii (c : CodePoint) : c.lowerAscii.isAsciiDigit = c.isAsciiDigit := by
  by_cases capital : 0x41 ≤ c.val ∧ c.val ≤ 0x5A
  · rw [lowerAscii, dif_pos capital, Bool.eq_iff_iff]
    simp only [isAsciiDigit, Bool.and_eq_true, decide_eq_true_eq]
    omega
  · rw [lowerAscii_of_not_capital capital]

/-- Turning a letter to lower case once is enough. -/
theorem lowerAscii_lowerAscii (c : CodePoint) : c.lowerAscii.lowerAscii = c.lowerAscii := by
  by_cases capital : 0x41 ≤ c.val ∧ c.val ≤ 0x5A
  · apply lowerAscii_of_not_capital
    rw [lowerAscii, dif_pos capital]
    dsimp only
    omega
  · rw [lowerAscii_of_not_capital capital, lowerAscii_of_not_capital capital]

end CodePoint

namespace Script

open Store

/-- An ASCII letter or an underscore, then ASCII letters, digits and underscores. -/
def isIdentifier : Text → Bool
  | [] => false
  | c :: rest => c.isAsciiWord && !c.isAsciiDigit && rest.all CodePoint.isAsciiWord

/-- An identifier has no digit in front and words in the rest. -/
theorem isIdentifier_cons {c : CodePoint} {rest : Text} :
    isIdentifier (c :: rest) ↔ c.isAsciiWord ∧ ¬c.isAsciiDigit ∧ ∀ d ∈ rest, d.isAsciiWord := by
  simp [isIdentifier, and_assoc]

/-- An identifier is made of letters, digits and underscores. -/
theorem isAsciiWord_of_isIdentifier {t : Text} (identifier : isIdentifier t) :
    ∀ c ∈ t, c.isAsciiWord := by
  cases t with
  | nil => simp
  | cons c rest =>
      obtain ⟨word, -, words⟩ := isIdentifier_cons.mp identifier
      exact List.forall_mem_cons.mpr ⟨word, words⟩

/-- Whatever a text is, it is made an identifier. -/
theorem isIdentifier_identifier (t : Text) : isIdentifier (identifier t) := by
  have clean : ∀ c ∈ t.map fun c => if c.isAsciiWord then c else ('_' : CodePoint), c.isAsciiWord := by
    intro c member
    obtain ⟨original, -, rfl⟩ := List.mem_map.mp member
    split
    · assumption
    · decide
  rw [identifier]
  split
  next => decide
  next c rest same =>
    rw [same, List.forall_mem_cons] at clean
    split
    next => exact isIdentifier_cons.mpr ⟨by decide, by decide, List.forall_mem_cons.mpr clean⟩
    next noDigit => exact isIdentifier_cons.mpr ⟨clean.1, noDigit, clean.2⟩

/-- An identifier that does not begin with a capital. -/
structure IsLocal (t : Text) : Prop where
  identifier : isIdentifier t
  small : uncapitalize t = t

/-- A local name stays one with more letters at its end. -/
theorem IsLocal.append {t rest : Text} (isLocal : IsLocal t) (words : ∀ c ∈ rest, c.isAsciiWord) :
    IsLocal (t ++ rest) := by
  obtain ⟨identifier, small⟩ := isLocal
  cases t with
  | nil => exact absurd identifier (by decide)
  | cons c tail =>
      obtain ⟨word, noDigit, tailWords⟩ := isIdentifier_cons.mp identifier
      refine ⟨isIdentifier_cons.mpr ⟨word, noDigit, ?_⟩, ?_⟩
      · exact List.forall_mem_append.mpr ⟨tailWords, words⟩
      · have first : c.lowerAscii = c := (List.cons.inj small).1
        rw [List.cons_append, uncapitalize, first]

/-- An identifier without its capital is a local name. -/
theorem isLocal_uncapitalize {t : Text} (identifier : isIdentifier t) : IsLocal (uncapitalize t) := by
  cases t with
  | nil => exact absurd identifier (by decide)
  | cons c rest =>
      obtain ⟨word, noDigit, words⟩ := isIdentifier_cons.mp identifier
      refine ⟨isIdentifier_cons.mpr ⟨CodePoint.isAsciiWord_lowerAscii word, ?_, words⟩, ?_⟩
      · rwa [CodePoint.isAsciiDigit_lowerAscii]
      · rw [uncapitalize, uncapitalize, CodePoint.lowerAscii_lowerAscii]

/-- The names that scripts find at run time. -/
def givenNames : List Text := ("workspace" : Text) :: ("script" : Text) :: Token.builtins

/-- A name that is given at run time is reserved or begins with a capital. -/
theorem IsLocal.not_given {t : Text} (isLocal : IsLocal t) (free : t ∉ reservedNames) :
    t ∉ givenNames := by
  intro isGiven
  have capitals : ∀ name ∈ givenNames, name ∈ reservedNames ∨ uncapitalize name ≠ name := by decide
  exact (capitals t isGiven).elim free fun capital => capital isLocal.small

/-- A numeral is made of digits. -/
theorem words_ofNat (n : Nat) : ∀ c ∈ Text.ofNat n, c.isAsciiWord := by
  intro c member
  simp [CodePoint.isAsciiWord, Text.mem_ofNat member]

/-- A local name with a number is a local name. -/
theorem isLocal_numbered {base : Text} (isLocal : IsLocal base) (i : Nat) : IsLocal (numbered base i) :=
  isLocal.append (words_ofNat i)

variable {α : Type}

/-- The variable that a node asks for is a local name. -/
theorem isLocal_calledBase (n : Node α) : IsLocal (Names.calledBase n) :=
  isLocal_uncapitalize (isIdentifier_identifier _)

/-- A kind with a number is a local name. -/
theorem isLocal_countedBase (n : Node α) (count : Nat) : IsLocal (Names.countedBase n count) := by
  have kinds : ∀ kind : Kind, IsLocal (kind.name.lowerAscii ++ ("_" : Text)) := by
    intro kind
    cases kind <;> exact ⟨by decide, by decide⟩
  exact (kinds n.kind).append (words_ofNat count)

/-- What is said of the kind of an extension is made of letters. -/
theorem words_kindPart [Arith α] (e : Extension α) : ∀ c ∈ Names.kindPart e, c.isAsciiWord := by
  intro c member
  obtain ⟨original, inKind, rfl⟩ := List.mem_map.mp member
  exact CodePoint.isAsciiWord_lowerAscii
    (isAsciiWord_of_isIdentifier (isIdentifier_identifier _) original inKind)

/-- Words of the language are made of small letters. -/
theorem letters_of_keyword {word : Text} (isKeyword : word ∈ Token.keywords) :
    ∀ c ∈ word, ¬c.isAsciiDigit ∧ c ≠ ('_' : CodePoint) := by
  have all : Token.keywords.all fun word => word.all fun c =>
      !c.isAsciiDigit && c != ('_' : CodePoint) := by decide
  simpa using List.all_eq_true.mp all word isKeyword

/-- No reserved word ends in a number. -/
theorem numbered_not_keyword (base : Text) (i : Nat) : numbered base i ∉ Token.keywords := by
  intro isKeyword
  obtain ⟨digit, isDigit⟩ := List.exists_mem_of_ne_nil _ (Text.ofNat_ne_nil i)
  have inName : digit ∈ numbered base i := List.mem_append_right _ isDigit
  exact (letters_of_keyword isKeyword digit inName).1 (Text.mem_ofNat isDigit)

/-- No reserved word has an underscore. -/
theorem underscored_not_keyword (first last : Text) :
    first ++ ("_" : Text) ++ last ∉ Token.keywords := by
  intro isKeyword
  have inName : ('_' : CodePoint) ∈ first ++ ("_" : Text) ++ last :=
    List.mem_append_left _ (List.mem_append_right _ List.mem_cons_self)
  exact (letters_of_keyword isKeyword _ inName).2 rfl

variable {names later : Names} {taken : List Text} {base owner : Text}

/-- A wanted name is handed out where it is free; else it gets a numeral. -/
theorem freeName_eq (taken : List Text) (base : Text) :
    (base ∉ taken ∧ freeName taken base = base) ∨
      (base ∈ taken ∧ ∃ i, freeName taken base = numbered base i) := by
  have numbers : ∀ bound i, ∃ j, firstFree taken base bound i = numbered base j := by
    intro bound
    induction bound with
    | zero => exact fun i => ⟨i, rfl⟩
    | succ bound ih =>
        intro i
        rw [firstFree]
        split
        · exact ih (i + 1)
        · exact ⟨i, rfl⟩
  rw [freeName]
  split
  next isTaken => exact .inr ⟨by simpa using isTaken, numbers _ _⟩
  next isFree => exact .inl ⟨by simpa using isFree, rfl⟩

namespace Names

/-- A word of the language was handed out. -/
def HoldsKeyword (names : Names) : Prop := ∃ name ∈ names.taken, name ∈ Token.keywords

/-- A local name that is claimed is one, with or without a number. -/
theorem isLocal_claim (names : Names) (isLocal : IsLocal base) : IsLocal (names.claim base).1 := by
  obtain ⟨-, isBase⟩ | ⟨-, i, isNumbered⟩ := freeName_eq names.taken base
  · rwa [claim, isBase]
  · rw [claim, isNumbered]
    exact isLocal_numbered isLocal i

/-- A word of the language is handed out where it is wanted, at the latest. -/
theorem holdsKeyword_claim (names : Names) (base : Text) :
    (names.claim base).2.HoldsKeyword ↔ names.HoldsKeyword ∨ base ∈ Token.keywords := by
  have unfolded : (names.claim base).2.HoldsKeyword ↔
      freeName names.taken base ∈ Token.keywords ∨ names.HoldsKeyword := by
    simp [HoldsKeyword, claim]
  rw [unfolded, or_comm]
  obtain ⟨-, isBase⟩ | ⟨isTaken, i, isNumbered⟩ := freeName_eq names.taken base
  · rw [isBase]
  · rw [isNumbered]
    have before : base ∈ Token.keywords → names.HoldsKeyword := fun isKeyword =>
      ⟨base, isTaken, isKeyword⟩
    have never := numbered_not_keyword base i
    tauto

variable {α : Type}

/-- A node that has no variable yet gets one for a base, which is a word of the language exactly
where the node is called so and variables follow what nodes are called. -/
theorem ofNode_claims {n : Node α} (unnamed : names.lookup n.id = none) :
    ∃ base, IsLocal base ∧
      (base ∈ Token.keywords ↔ names.counted = false ∧ calledBase n ∈ Token.keywords) ∧
      (names.ofNode n).1 = (names.claim base).1 ∧
      (names.ofNode n).2.taken = (names.claim base).2.taken := by
  rw [ofNode, unnamed]
  cases counted : names.counted with
  | true =>
      have never : countedBase n (names.count + 1) ∉ Token.keywords := underscored_not_keyword _ _
      exact ⟨countedBase n (names.count + 1), isLocal_countedBase n _, by simp [never], rfl, rfl⟩
  | false =>
      refine ⟨calledBase n, isLocal_calledBase n, by simp, ?_, ?_⟩
      all_goals simp [claim, counted]

/-- The variable of an extension is a local name where that of its owner is. -/
theorem isLocal_ofExtension [Arith α] (isLocal : IsLocal owner) (e : Extension α) :
    IsLocal (names.ofExtension owner e).1 := by
  have underscore : ∀ c ∈ ("_" : Text), c.isAsciiWord := by
    intro c member
    rw [List.mem_singleton.mp member]
    decide
  have start : IsLocal (if names.counted then ("ui" : Text) else owner) := by
    split
    · exact ⟨by decide, by decide⟩
    · exact isLocal
  exact isLocal_claim names ((start.append underscore).append (words_kindPart e))

/-- The variable of an extension is no reserved word. -/
theorem holdsKeyword_ofExtension [Arith α] (names : Names) (owner : Text) (e : Extension α) :
    (names.ofExtension owner e).2.HoldsKeyword ↔ names.HoldsKeyword := by
  rw [ofExtension, holdsKeyword_claim]
  exact or_iff_left (underscored_not_keyword _ _)

end Names

/-- The variable that a statement declares, if it declares one. -/
def Statement.declares? : Statement → Option Text
  | .create v _ => some v
  | .localPlayer => some playerVariable
  | .assign .. => none
  | .blank => none

/-- The variables that statements declare, in order. -/
def declared (statements : List Statement) : List Text := statements.filterMap Statement.declares?

section

variable (v kind property : Text) (value : Expr) (rest : List Statement)

@[simp] theorem declared_nil : declared [] = [] := rfl

@[simp] theorem declared_create : declared (.create v kind :: rest) = v :: declared rest := rfl

@[simp] theorem declared_localPlayer : declared (.localPlayer :: rest) = playerVariable :: declared rest := rfl

@[simp] theorem declared_assign : declared (.assign v property value :: rest) = declared rest := rfl

@[simp] theorem declared_blank : declared (.blank :: rest) = declared rest := rfl

@[simp] theorem declared_append (first : List Statement) :
    declared (first ++ rest) = declared first ++ declared rest := List.filterMap_append

@[simp] theorem declared_assigns (assignments : List (Text × Expr)) :
    declared (assigns v assignments) = [] := by
  simp [declared, assigns, Statement.declares?]

end

variable {α : Type} [Arith α] {s : Store α} {statements : List Statement} {n : Node α} {ids : List Text}

/-- The extensions of a node declare new variables, none of them a word of the language. -/
theorem declared_extensionStatements {extensions : List (Extension α)} (owned : IsLocal owner)
    (written : extensionStatements names owner extensions = .ok (statements, later)) :
    names.Extends (declared statements) later ∧ (∀ v ∈ declared statements, IsLocal v) ∧
      (later.HoldsKeyword ↔ names.HoldsKeyword) ∧ later.nodeVariables = names.nodeVariables := by
  induction extensions generalizing names statements later with
  | nil =>
      cases written
      exact ⟨.refl names, by simp, .rfl, rfl⟩
  | cons e rest ih =>
      obtain ⟨assignments, others, -, isOthers, rfl⟩ := extensionStatements_cons_iff.mp written
      obtain ⟨-, fresh, unnamed⟩ := Names.ofExtension_new names owner e
      obtain ⟨extended, locals, keyword, same⟩ := ih isOthers
      simp only [List.cons_append, declared_create, declared_append, declared_assigns, declared_assign,
        List.nil_append]
      refine ⟨fresh.trans extended, ?_, ?_, same.trans unnamed⟩
      · exact List.forall_mem_cons.mpr ⟨Names.isLocal_ofExtension owned e, locals⟩
      · exact keyword.trans (Names.holdsKeyword_ofExtension names owner e)

/-- A node declares new variables. One is a word of the language exactly where the node is called
so and variables follow what nodes are called. -/
theorem declared_nodeStatements (unnamed : names.lookup n.id = none)
    (written : nodeStatements names n = .ok (statements, later)) :
    names.Extends (declared statements) later ∧ (∀ v ∈ declared statements, IsLocal v) ∧
      (later.HoldsKeyword ↔ names.HoldsKeyword ∨
        names.counted = false ∧ Names.calledBase n ∈ Token.keywords) ∧
      ∀ id, id ≠ n.id → later.lookup id = names.lookup id := by
  obtain ⟨-, assignments, extensions, -, isExtensions, rfl⟩ := nodeStatements_iff.mp written
  obtain ⟨base, isLocal, isKeyword, isName, taken⟩ := Names.ofNode_claims unnamed
  obtain ⟨-, fresh, recorded⟩ := Names.ofNode_new unnamed
  have named : IsLocal (names.ofNode n).1 := isName ▸ Names.isLocal_claim names isLocal
  obtain ⟨extended, locals, keyword, same⟩ := declared_extensionStatements named isExtensions
  simp only [List.cons_append, declared_create, declared_append, declared_assigns, declared_assign,
    declared_blank, declared_nil, List.nil_append, List.append_nil]
  refine ⟨fresh.trans extended, List.forall_mem_cons.mpr ⟨named, locals⟩, ?_, fun id other => ?_⟩
  · rw [keyword, ← isKeyword, ← Names.holdsKeyword_claim, Names.HoldsKeyword, taken, Names.HoldsKeyword]
  · rw [Names.lookup, same, recorded, List.find?_cons_of_neg (by simpa using other.symm), Names.lookup]

/-- Nodes of different ids declare different variables. One is a word of the language exactly where
a node is called so and variables follow what nodes are called. -/
theorem declared_treeStatements (distinct : ids.Nodup) (unnamed : ∀ id ∈ ids, names.lookup id = none)
    (written : treeStatements s names ids = .ok statements) :
    ∃ later, names.Extends (declared statements) later ∧ (∀ v ∈ declared statements, IsLocal v) ∧
      (later.HoldsKeyword ↔ names.HoldsKeyword ∨ names.counted = false ∧
        ∃ id ∈ ids, ∃ n, s.find? id = some n ∧ Names.calledBase n ∈ Token.keywords) := by
  induction ids generalizing names statements with
  | nil =>
      cases written
      exact ⟨names, .refl names, by simp, by simp⟩
  | cons id rest ih =>
      obtain ⟨isNew, restDistinct⟩ := List.nodup_cons.mp distinct
      obtain ⟨unnamedHere, restUnnamed⟩ := List.forall_mem_cons.mp unnamed
      cases found : s.find? id with
      | none =>
          rw [treeStatements_cons_none found] at written
          obtain ⟨later, extended, locals, keyword⟩ := ih restDistinct restUnnamed written
          exact ⟨later, extended, locals, by simpa [found] using keyword⟩
      | some n =>
          obtain ⟨first, between, others, isFirst, isOthers, rfl⟩ := (treeStatements_cons_some found).mp written
          obtain rfl := id_of_find? found
          obtain ⟨extended, locals, keyword, kept⟩ := declared_nodeStatements unnamedHere isFirst
          have unnamed' : ∀ id ∈ rest, between.lookup id = none := by
            intro id member
            rw [kept id fun same => isNew (same ▸ member)]
            exact restUnnamed id member
          obtain ⟨later, extended', locals', keyword'⟩ := ih restDistinct unnamed' isOthers
          refine ⟨later, ?_, ?_, ?_⟩
          · rw [declared_append]
            exact extended.trans extended'
          · rw [declared_append]
            exact List.forall_mem_append.mpr ⟨locals, locals'⟩
          · simp only [keyword', keyword, extended.counted, List.mem_cons, exists_eq_or_imp, found,
              Option.some.injEq, exists_eq_left', and_or_left, or_assoc]

omit [Arith α] in
/-- What is written stands behind what was written before, and was not met before. -/
theorem write_order (s : Store α) (bound : Nat) (done : Written) (id : Text) :
    ∃ fresh : List Text, (write s bound done id).order = done.order ++ fresh ∧ fresh.Nodup ∧
      (∀ other ∈ fresh, other ∉ done.met ∧ other ∈ (write s bound done id).met) ∧
      done.met ⊆ (write s bound done id).met := by
  induction bound generalizing done id with
  | zero => exact ⟨[], by simp [write]⟩
  | succ bound ih =>
      rw [write]
      split
      next => exact ⟨[], by simp⟩
      next isNew =>
        replace isNew : id ∉ done.met := by simpa using isNew
        cases s.find? id with
        | none => exact ⟨[], by simp⟩
        | some n =>
            dsimp only
            split
            next => exact ⟨[id], by simp [isNew]⟩
            next =>
              obtain ⟨fresh, order, distinct, isFresh, kept⟩ := ih { done with met := id :: done.met } n.parent
              refine ⟨fresh ++ [id], ?_, ?_, ?_, ?_⟩
              · rw [order, List.append_assoc]
              · refine List.nodup_append.mpr ⟨distinct, by simp, ?_⟩
                intro other member last isLast same
                obtain rfl := List.mem_singleton.mp isLast
                exact (isFresh other member).1 (same ▸ List.mem_cons_self)
              · intro other member
                rcases List.mem_append.mp member with before | isLast
                · exact ⟨fun isMet => (isFresh other before).1 (List.mem_cons_of_mem _ isMet),
                    (isFresh other before).2⟩
                · obtain rfl := List.mem_singleton.mp isLast
                  exact ⟨isNew, kept List.mem_cons_self⟩
              · exact fun other isMet => kept (List.mem_cons_of_mem _ isMet)

/-- No id is written twice. -/
theorem nodup_writingOrder (s : Store α) : (writingOrder s).Nodup := by
  have run : ∀ (ids : List Text) (done : Written), done.order.Nodup → done.order ⊆ done.met →
      (ids.foldl (write s (s.size + 1)) done).order.Nodup := by
    intro ids
    induction ids with
    | nil => exact fun done distinct _ => distinct
    | cons id rest ih =>
        intro done distinct isMet
        obtain ⟨fresh, order, freshDistinct, isFresh, kept⟩ := write_order s (s.size + 1) done id
        refine ih _ ?_ ?_
        · rw [order, List.nodup_append]
          refine ⟨distinct, freshDistinct, fun other before last isFreshLast same => ?_⟩
          exact (isFresh last isFreshLast).1 (same ▸ isMet before)
        · rw [order]
          exact List.append_subset.mpr ⟨fun other before => kept (isMet before),
            fun other isLast => (isFresh other isLast).2⟩
  exact run _ _ List.nodup_nil (List.nil_subset _)

/-- The variables of the header. -/
def headerVariables (p : Project α) : List Text :=
  if p.usesCoreGui then [screenVariable] else [screenVariable, playerVariable]

/-- The header declares its own variables. -/
theorem declared_header {p : Project α} (written : header p = .ok statements) :
    declared statements = headerVariables p := by
  obtain ⟨name, -, returned⟩ := bind_eq_ok.mp written
  cases returned
  rw [headerVariables]
  cases p.usesCoreGui <;> rfl

/-- **Variables have legal names, unless a node is called by a word of the language.** Every variable
of a script is an identifier and no name of the run time, and below the header none is a variable of
the header. A variable is a word of the language exactly where variables follow what nodes are called
and a written node is called so. -/
theorem declared_legal {p : Project α} {script : Script} (written : ofStore s p = .ok script) :
    ∃ names, declared script.statements = headerVariables p ++ names ∧
      (∀ v ∈ headerVariables p ++ names, isIdentifier v ∧ v ∉ givenNames) ∧
      (∀ v ∈ names, v ≠ playerVariable ∧ v ≠ screenVariable) ∧
      ((∃ v ∈ headerVariables p ++ names, v ∈ Token.keywords) ↔ p.isNested = false ∧
        ∃ id ∈ writingOrder s, ∃ n, s.find? id = some n ∧ Names.calledBase n ∈ Token.keywords) := by
  obtain ⟨first, rest, isFirst, -, isRest, rfl⟩ := ofStore_iff.mp written
  obtain ⟨later, extended, locals, keyword⟩ :=
    declared_treeStatements (nodup_writingOrder s) (fun id _ => rfl) isRest
  have taken : later.taken = (declared rest).reverse ++ reservedNames := extended.taken
  have free : ∀ v ∈ declared rest, v ∉ reservedNames := by
    have reserved : reservedNames.Nodup := by decide
    have distinct : later.taken.Nodup := extended.distinct reserved
    rw [taken, List.nodup_append] at distinct
    exact fun v member isReserved => distinct.2.2 v (List.mem_reverse.mpr member) v isReserved rfl
  refine ⟨declared rest, by rw [declared_append, declared_header isFirst], ?_, ?_, ?_⟩
  · refine List.forall_mem_append.mpr ⟨?_, fun v member => ?_⟩
    · rw [headerVariables]
      split <;> decide
    · exact ⟨(locals v member).identifier, (locals v member).not_given (free v member)⟩
  · refine fun v member => ⟨fun same => free v member ?_, fun same => free v member ?_⟩
    · rw [same]
      decide
    · rw [same]
      decide
  · have noneReserved : ¬∃ v ∈ reservedNames, v ∈ Token.keywords := by decide
    have noneInHeader : ¬∃ v ∈ headerVariables p, v ∈ Token.keywords := by
      rw [headerVariables]
      split <;> decide
    have start : ¬({ counted := p.isNested } : Names).HoldsKeyword := noneReserved
    have split : later.HoldsKeyword ↔ ∃ v ∈ declared rest, v ∈ Token.keywords := by
      rw [Names.HoldsKeyword, taken]
      simp only [List.mem_append, List.mem_reverse, or_and_right, exists_or]
      exact or_iff_left noneReserved
    simp only [List.mem_append, or_and_right, exists_or]
    rw [or_iff_right noneInHeader, ← split, keyword, or_iff_right start]

/-- A design of one frame, called by a word of the language. -/
def ending : Store Number :=
  { canvasW := .int 980, canvasH := .int 620
    nodes := [{ id := "n1", kind := .frame, name := "end", parent := root, x := .int 490, y := .int 310
                w := .int 320, h := .int 180, anchorX := Arith.zero, anchorY := Arith.zero, z := 1
                bgColor := Rgb.white, bgAlpha := Arith.one, border := false, text := []
                textColor := Rgb.white, textScaled := false, font := defaultFont, image := []
                canvasW := 0, canvasH := 0, scrollbarThickness := 8, extensions := [] }] }

/-- Of a node that is called as a reserved word the script declares this word. -/
theorem declared_legal_ending : ∃ script, ofStore ending {} = .ok script ∧
    ∃ names, declared script.statements = headerVariables ({} : Project Number) ++ names ∧
      (∀ v ∈ headerVariables ({} : Project Number) ++ names, isIdentifier v ∧ v ∉ givenNames) ∧
      (∀ v ∈ names, v ≠ playerVariable ∧ v ≠ screenVariable) ∧
      ((∃ v ∈ headerVariables ({} : Project Number) ++ names, v ∈ Token.keywords) ↔
        ({} : Project Number).isNested = false ∧ ∃ id ∈ writingOrder ending, ∃ n,
          ending.find? id = some n ∧ Names.calledBase n ∈ Token.keywords) := by
  cases written : ofStore ending {} with
  | error fault =>
      have returns : (ofStore ending {}).toOption.isSome := by decide +kernel
      simp [written, Except.toOption] at returns
  | ok script => exact ⟨script, rfl, declared_legal written⟩

/-- The variable of the frame is a word of the language. -/
theorem declared_keyword_ending : ∃ script ∈ (ofStore ending {}).toOption,
    ("end" : Text) ∈ declared script.statements ∧ ("end" : Text) ∈ Token.keywords ∧
      ("local end = Instance.new(\"Frame\")" : Text) ∈ script.lines := by
  decide +kernel

end Script

end LayoutDesigner
