import LayoutDesigner.Proofs.Naming
import Mathlib.Data.List.Pairwise

/-!
# The names of one script

A base that is taken gets a numeral, and the search for the least numeral that frees it ends by itself:
the numbered names of a base are all different, and only finitely many names are taken. What it finds is
new to the names handed out before, also where it reads like another base. So of all requests for
variables that one script makes, two get the same name exactly where they ask for the same node.
-/

namespace LayoutDesigner.Script

variable {taken : List Text} {base name found : Text} {next : Nat}

/-- The search for a free name, which no bound ends: it looks at `name` and, where that is taken, at the
base with the numerals from `next` on. -/
inductive Searches (taken : List Text) (base : Text) : (name : Text) → (next : Nat) → (found : Text) → Prop
  | free {name : Text} {next : Nat} (isFree : name ∉ taken) : Searches taken base name next name
  | more {name found : Text} {next : Nat} (isTaken : name ∈ taken)
      (later : Searches taken base (numbered base next) (next + 1) found) : Searches taken base name next found

/-- What a taken base becomes: the base where it is free, else the base with the least numeral from 2 on
that frees it. -/
inductive IsLeastFree (taken : List Text) (base : Text) : Text → Prop
  | base (isFree : base ∉ taken) : IsLeastFree taken base base
  | numbered {i : Nat} (isTaken : base ∈ taken) (low : 2 ≤ i) (isFree : numbered base i ∉ taken)
      (below : ∀ j, 2 ≤ j → j < i → numbered base j ∈ taken) : IsLeastFree taken base (numbered base i)

namespace Searches

/-- A search finds one name. -/
theorem unique {other : Text} (search : Searches taken base name next found)
    (also : Searches taken base name next other) : found = other := by
  induction search with
  | free isFree =>
      cases also with
      | free => rfl
      | more isTaken => exact absurd isTaken isFree
  | more isTaken _ ih =>
      cases also with
      | free isFree => exact absurd isTaken isFree
      | more _ later => exact ih later

/-- From a numbered name on, the search finds the first numeral whose name is free. -/
theorem exists_least {i : Nat} (search : Searches taken base (numbered base i) (i + 1) found) :
    ∃ j, i ≤ j ∧ found = numbered base j ∧ numbered base j ∉ taken ∧
      ∀ k, i ≤ k → k < j → numbered base k ∈ taken := by
  generalize isName : numbered base i = name at search
  generalize isNext : i + 1 = next at search
  induction search generalizing i with
  | free isFree =>
      subst isName
      refine ⟨i, Nat.le_refl i, rfl, isFree, fun k low high => ?_⟩
      omega
  | more isTaken _ ih =>
      subst isName isNext
      obtain ⟨j, high, isFound, isFree, below⟩ := ih rfl rfl
      refine ⟨j, by omega, isFound, isFree, fun k low less => ?_⟩
      rcases Nat.eq_or_lt_of_le low with rfl | later
      · exact isTaken
      · exact below k later less

/-- What a search ends with is free, and all that it tried before is taken. -/
theorem isLeastFree (search : Searches taken base base 2 found) : IsLeastFree taken base found := by
  cases search with
  | free isFree => exact .base isFree
  | more isTaken later =>
      obtain ⟨i, low, rfl, isFree, below⟩ := later.exists_least
      exact .numbered isTaken low isFree below

end Searches

/-- Where the bounded search comes to a free name, the unbounded one ends with it. -/
theorem searches_firstFree {bound i : Nat} (isFree : firstFree taken base bound i ∉ taken) :
    Searches taken base (numbered base i) (i + 1) (firstFree taken base bound i) := by
  induction bound generalizing i with
  | zero => exact .free isFree
  | succ bound ih =>
      rw [firstFree] at isFree ⊢
      split
      · next isTaken =>
          rw [if_pos isTaken] at isFree
          exact .more (List.elem_iff.mp isTaken) (ih isFree)
      · next notTaken =>
          rw [if_neg notTaken] at isFree
          exact .free isFree

/-- The search ends, and with the free name of the base. -/
theorem searches_freeName (taken : List Text) (base : Text) : Searches taken base base 2 (freeName taken base) := by
  have isFree := freeName_not_mem taken base
  rw [freeName] at isFree ⊢
  split
  · next isTaken =>
      rw [if_pos isTaken] at isFree
      exact .more (List.elem_iff.mp isTaken) (searches_firstFree isFree)
  · next notTaken =>
      rw [if_neg notTaken] at isFree
      exact .free isFree

/-- What a variable is asked for: a node, or an extension of the node that `owner` stands for. -/
inductive Request (α : Type) where
  | node (n : Node α)
  | extension (owner : Text) (e : Extension α)

variable {α : Type}

/-- The id of the node that is asked for. -/
def Request.id? : Request α → Option Text
  | .node n => some n.id
  | .extension _ _ => none

/-- Both requests ask for one node. -/
def Request.SameNode (first second : Request α) : Prop := ∃ id, first.id? = some id ∧ second.id? = some id

namespace Names

variable {names later : Names} {request : Request α} {log : List (Request α × Text)}

/-- A name that was just recorded is the first that is looked up. -/
theorem lookup_cons {id v : Text} (recorded : later.nodeVariables = (id, v) :: names.nodeVariables) (other : Text) :
    later.lookup other = if id = other then some v else names.lookup other := by
  rw [lookup, recorded, List.find?_cons]
  by_cases same : id = other
  · simp [same]
  · simp [same, lookup]

/-- Two answers are the same exactly where both requests ask for one node. -/
def Agree (first second : Request α × Text) : Prop := first.2 = second.2 ↔ first.1.SameNode second.1

/-- The requests with their answers that led to the names: every answer is taken, the node variables are
the answers to nodes, and answers agree as they should. -/
structure Logs (log : List (Request α × Text)) (names : Names) : Prop where
  taken : ∀ entry ∈ log, entry.2 ∈ names.taken
  known : ∀ id v, names.lookup id = some v ↔ ∃ entry ∈ log, entry.1.id? = some id ∧ entry.2 = v
  agree : log.Pairwise Agree

namespace Logs

/-- Nothing was asked for before the first names of a script. -/
theorem start (counted : Bool) : Logs ([] : List (Request α × Text)) { counted } where
  taken := List.forall_mem_nil _
  known id v := by simp [lookup]
  agree := .nil

/-- Requests with the same answer ask for the same. -/
theorem id?_eq {first second : Request α × Text} (logs : Logs log names) (isFirst : first ∈ log) (isSecond : second ∈ log)
    (same : first.2 = second.2) : first.1.id? = second.1.id? := by
  let alike (first second : Request α × Text) : Prop := first.2 = second.2 → first.1.id? = second.1.id?
  have symm : Std.Symm alike := ⟨fun _ _ alike same => (alike same.symm).symm⟩
  have all : log.Pairwise alike := by
    refine logs.agree.imp fun agree same => ?_
    obtain ⟨id, ofFirst, ofSecond⟩ := agree.mp same
    rw [ofFirst, ofSecond]
  exact List.Pairwise.forall_of_forall (fun _ _ _ => rfl) all isFirst isSecond same

/-- An answer that was not taken before is the answer to no other request. -/
theorem fresh {v : Text} (logs : Logs log names) (isNew : v ∉ names.taken) (isTaken : later.taken = v :: names.taken)
    (unasked : ∀ entry ∈ log, ¬entry.1.SameNode request)
    (known : ∀ id w, later.lookup id = some w ↔ names.lookup id = some w ∨ request.id? = some id ∧ v = w) :
    Logs (log ++ [(request, v)]) later where
  taken := by
    rw [isTaken, List.forall_mem_append, List.forall_mem_singleton]
    exact ⟨fun entry listed => List.mem_cons_of_mem _ (logs.taken entry listed), List.mem_cons_self⟩
  known id w := by
    rw [known, logs.known]
    simp [or_and_right, exists_or]
  agree := by
    refine List.pairwise_append.mpr ⟨logs.agree, List.pairwise_singleton _ _, fun entry listed last isLast => ?_⟩
    obtain rfl := List.mem_singleton.mp isLast
    refine iff_of_false (fun same => ?_) (unasked entry listed)
    apply isNew
    rw [← show entry.2 = v from same]
    exact logs.taken entry listed

/-- A node that was asked for is answered as before. -/
theorem again {n : Node α} {v : Text} (logs : Logs log names) (found : names.lookup n.id = some v) :
    Logs (log ++ [(.node n, v)]) names where
  taken := by
    obtain ⟨entry, listed, -, rfl⟩ := (logs.known n.id v).mp found
    rw [List.forall_mem_append, List.forall_mem_singleton]
    exact ⟨logs.taken, logs.taken entry listed⟩
  known id w := by
    have same : names.lookup id = some w ↔ names.lookup id = some w ∨ n.id = id ∧ v = w := by
      refine (or_iff_left_of_imp ?_).symm
      rintro ⟨rfl, rfl⟩
      exact found
    rw [same, logs.known]
    simp [or_and_right, exists_or, Request.id?]
  agree := by
    refine List.pairwise_append.mpr ⟨logs.agree, List.pairwise_singleton _ _, fun entry listed last isLast => ?_⟩
    obtain rfl := List.mem_singleton.mp isLast
    constructor
    · intro same
      -- The node was asked for when this answer was first given, so every request with this answer asks for it.
      obtain ⟨first, isFirst, asks, isAnswer⟩ := (logs.known n.id v).mp found
      exact ⟨n.id, (logs.id?_eq listed isFirst (same.trans isAnswer.symm)).trans asks, rfl⟩
    · rintro ⟨id, asks, isNode⟩
      obtain rfl : n.id = id := Option.some.inj isNode
      have known := (logs.known n.id entry.2).mpr ⟨entry, listed, asks, rfl⟩
      exact Option.some.inj (known.symm.trans found)

end Logs

variable [Arith α]

/-- The variable of what is asked for. -/
def answer (names : Names) : Request α → Text × Names
  | .node n => names.ofNode n
  | .extension owner e => names.ofExtension owner e

/-- The variables of what is asked for, one request after the other. -/
def answers : Names → List (Request α) → List Text
  | _, [] => []
  | names, request :: rest => (names.answer request).1 :: answers (names.answer request).2 rest

namespace Logs

/-- One more request. -/
theorem answer (logs : Logs log names) (request : Request α) :
    Logs (log ++ [(request, (names.answer request).1)]) (names.answer request).2 := by
  cases request with
  | node n =>
      cases unnamed : names.lookup n.id with
      | some v =>
          have same : names.ofNode n = (v, names) := by rw [ofNode, unnamed]
          rw [Names.answer, same]
          exact logs.again unnamed
      | none =>
          obtain ⟨isNew, extended, recorded⟩ := ofNode_new unnamed
          refine logs.fresh isNew extended.taken (fun entry listed same => ?_) fun id w => ?_
          · obtain ⟨id, asks, isNode⟩ := same
            obtain rfl : n.id = id := Option.some.inj isNode
            have known := (logs.known n.id entry.2).mpr ⟨entry, listed, asks, rfl⟩
            rw [unnamed] at known
            cases known
          · rw [Names.answer, lookup_cons recorded]
            by_cases same : n.id = id
            · subst same
              simp [unnamed, Request.id?]
            · simp [same, Request.id?]
  | extension owner e =>
      obtain ⟨isNew, extended, recorded⟩ := ofExtension_new names owner e
      refine logs.fresh isNew extended.taken (fun entry listed same => ?_) fun id w => ?_
      · obtain ⟨id, -, isNode⟩ := same
        cases isNode
      · rw [Names.answer, lookup, recorded, ← lookup]
        simp [Request.id?]

/-- All requests one after the other. -/
theorem answers (logs : Logs log names) (requests : List (Request α)) :
    (log ++ requests.zip (names.answers requests)).Pairwise Agree := by
  induction requests generalizing log names with
  | nil => simpa using logs.agree
  | cons request rest ih =>
      have all := ih (logs.answer request)
      rwa [List.append_assoc, List.singleton_append] at all

end Logs

/-- There is one answer to each request. -/
theorem length_answers (names : Names) (requests : List (Request α)) :
    (names.answers requests).length = requests.length := by
  induction requests generalizing names with
  | nil => rfl
  | cons request rest ih => rw [answers, List.length_cons, List.length_cons, ih]

/-- **Every name handed out is fresh.** For any taken names and any base the search ends, with one name
only: the base where it is free, else the base with the least numeral from 2 on that frees it. Handing it
out adds exactly this name, which was not taken, to the taken ones. So in one script, whatever is asked for
in whatever order, every request is answered, and two answers are the same exactly where both requests ask
for one node. -/
theorem answers_agree (counted : Bool) (requests : List (Request α)) :
    (∀ (taken : List Text) (base : Text), Searches taken base base 2 (freeName taken base) ∧
      (∀ found, Searches taken base base 2 found → found = freeName taken base) ∧
      IsLeastFree taken base (freeName taken base)) ∧
    (∀ (names : Names) (base : Text), freeName names.taken base ∉ names.taken ∧ names.claim base =
      (freeName names.taken base, { names with taken := freeName names.taken base :: names.taken })) ∧
    (({ counted } : Names).answers requests).length = requests.length ∧
    (requests.zip (({ counted } : Names).answers requests)).Pairwise Agree := by
  refine ⟨fun taken base => ?_, fun names base => ⟨freeName_not_mem names.taken base, rfl⟩, length_answers _ _, ?_⟩
  · have search := searches_freeName taken base
    exact ⟨search, fun found also => also.unique search, search.isLeastFree⟩
  · exact (Logs.start counted).answers requests

end Names

end LayoutDesigner.Script
