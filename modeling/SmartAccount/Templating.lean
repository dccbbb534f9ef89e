import SmartAccount.Types
import SmartAccount.Foundation.Splicing

/-!
# What a materialized template holds

`materialize_args` against simultaneous substitution.  The template is read once, into plain
bytes and slots for its placeholders, and each slot is to hold the text of its substitution.
The loop replaces one placeholder after the other in the same buffer: the result is the
intended one exactly when decoding changes nothing and no pass finds its placeholder anywhere
but in the template's own slots (`materializeArgs_splices_iff`).
-/

namespace SmartAccount

open Foundation

/-! ## The template's own placeholders -/

def Substitution.placeholder (sub : Substitution) : Bytes := placeholderOf sub.reference

/-- A plain byte, or a slot for a substitution. -/
inductive Piece where
  | byte (b : UInt8)
  | slot (sub : Substitution)
deriving DecidableEq

abbrev Pieces := List Piece

/-- Read the bytes left after the first `skip`: leftmost placeholders, never overlapping, and
the first substitution listed where several fit. -/
def piecesFrom (subs : List Substitution) : Nat → Bytes → Pieces
  | _, [] => []
  | skip + 1, _ :: bs => piecesFrom subs skip bs
  | 0, b :: bs =>
      match subs.find? fun sub => sub.placeholder.isPrefixOf (b :: bs) with
      | some sub => .slot sub :: piecesFrom subs (sub.placeholder.length - 1) bs
      | none => .byte b :: piecesFrom subs 0 bs

/-- The template, read as plain bytes and slots. -/
def piecesOf (subs : List Substitution) (template : Bytes) : Pieces := piecesFrom subs 0 template

/-- One text for each slot. -/
def splice (text : Substitution → Bytes) (pieces : Pieces) : Bytes :=
  pieces.flatMap fun
    | .byte b => [b]
    | .slot sub => text sub

/-- One text put for good into the slots of one substitution. -/
def Pieces.settle (sub : Substitution) (text : Bytes) (pieces : Pieces) : Pieces :=
  pieces.flatMap fun
    | .byte b => [.byte b]
    | .slot other => if other = sub then text.map .byte else [.slot other]

/-- The pieces as the pass for `sub` should see them: its own slots as holes, and every other
slot still with its placeholder. -/
def Pieces.holed (sub : Substitution) (pieces : Pieces) : Holed :=
  pieces.flatMap fun
    | .byte b => [some b]
    | .slot other => if other = sub then [none] else other.placeholder.map some

/-! ## Texts -/

/-- The text the loop splices for a substitution, none where the operation fails. -/
def produced (savedResults : IterableMap String Bytes) (sub : Substitution) : Bytes :=
  match savedResults.get sub.reference with
  | none => []
  | some saved =>
      match applySubstitutionOp saved sub.op sub.reference with
      | .ok text => text
      | .error _ => []

/-- The same, with the saved bytes themselves for a raw substitution. -/
def verbatim (savedResults : IterableMap String Bytes) (sub : Substitution) : Bytes :=
  match sub.op with
  | .raw => (savedResults.get sub.reference).getD []
  | _ => produced savedResults sub

/-! ## The passes -/

/-- What the passes of the loop keep and replace, from the buffer `out` on. -/
def passCuts (savedResults : IterableMap String Bytes) : Bytes → List Substitution → List Holed
  | _, [] => []
  | out, sub :: rest =>
      cut sub.placeholder out ::
        match substituteOnce savedResults out sub with
        | .ok next => passCuts savedResults next rest
        | .error _ => []

/-- What they should keep and replace: each the slots of its own substitution. -/
def slotCuts (text : Substitution → Bytes) : Pieces → List Substitution → List Holed
  | _, [] => []
  | pieces, sub :: rest => pieces.holed sub :: slotCuts text (pieces.settle sub (text sub)) rest

/-- The output has the given texts in the template's own placeholders, every other byte as it
was, and no pass has replaced anything but the template's placeholders of its substitution. -/
structure Splices (text : Substitution → Bytes) (template : Bytes)
    (subs order : List Substitution) (savedResults : IterableMap String Bytes) (out : Bytes) :
    Prop where
  passes : passCuts savedResults (fromUtf8Lossy template) order =
    slotCuts text (piecesOf subs template) order
  output : out = splice text (piecesOf subs template)

/-- Before no pass does its placeholder occur anywhere but in the slots of its substitution. -/
def Unscanned (text : Substitution → Bytes) : Pieces → List Substitution → Prop
  | _, [] => True
  | pieces, sub :: rest =>
      Aligned sub.placeholder (pieces.holed sub) ∧
        Unscanned text (pieces.settle sub (text sub)) rest

instance decidableUnscanned (text : Substitution → Bytes) :
    (pieces : Pieces) → (order : List Substitution) → Decidable (Unscanned text pieces order)
  | _, [] => inferInstanceAs (Decidable True)
  | pieces, sub :: rest =>
      have := decidableUnscanned text (pieces.settle sub (text sub)) rest
      inferInstanceAs (Decidable (Aligned sub.placeholder (pieces.holed sub) ∧
        Unscanned text (pieces.settle sub (text sub)) rest))

/-! ## Reading and writing pieces -/

theorem placeholder_ne_nil (sub : Substitution) : sub.placeholder ≠ [] := by
  intro empty
  rw [Substitution.placeholder, placeholderOf, utf8Bytes_append] at empty
  have closing : utf8Bytes "\x7d\"" = [] := (List.append_eq_nil_iff.mp empty).2
  exact absurd closing (by decide)

theorem splice_piecesFrom (subs : List Substitution) (skip : Nat) (bs : Bytes) :
    splice Substitution.placeholder (piecesFrom subs skip bs) = bs.drop skip := by
  fun_induction piecesFrom subs skip bs with
  | case1 => simp [splice]
  | case2 skip b bs ih => rw [ih, List.drop_succ_cons]
  | case3 b bs sub found ih =>
      have fits := List.find?_some found
      change sub.placeholder ++ splice _ _ = _
      rw [ih, drop_of_isPrefixOf (placeholder_ne_nil sub) fits, List.drop_zero]
  | case4 b bs absent ih =>
      change b :: splice _ _ = _
      rw [ih, List.drop_zero, List.drop_zero]

/-- The placeholders put back give the template. -/
theorem splice_piecesOf (subs : List Substitution) (template : Bytes) :
    splice Substitution.placeholder (piecesOf subs template) = template :=
  splice_piecesFrom subs 0 template

/-- The slots are of substitutions listed. -/
theorem slot_mem_piecesFrom {subs : List Substitution} {skip : Nat} {bs : Bytes}
    {sub : Substitution} (inside : .slot sub ∈ piecesFrom subs skip bs) : sub ∈ subs := by
  fun_induction piecesFrom subs skip bs with
  | case1 => cases inside
  | case2 skip b bs ih => exact ih inside
  | case3 b bs other found ih =>
      rcases List.mem_cons.mp inside with eq | later
      · obtain rfl := Piece.slot.inj eq
        exact List.mem_of_find?_eq_some found
      · exact ih later
  | case4 b bs absent ih =>
      rcases List.mem_cons.mp inside with eq | later
      · cases eq
      · exact ih later

namespace Pieces

theorem fill_holed (sub : Substitution) (text : Bytes) (pieces : Pieces) :
    fill text (pieces.holed sub) =
      splice (fun other => if other = sub then text else other.placeholder) pieces := by
  induction pieces with
  | nil => rfl
  | cons piece pieces ih =>
      cases piece with
      | byte b => exact congrArg (b :: ·) ih
      | slot other =>
          change fill text ((if other = sub then [none] else other.placeholder.map some) ++
            holed sub pieces) = (if other = sub then text else other.placeholder) ++ splice _ pieces
          rw [fill_append, ih]
          split
          · simp
          · rw [fill_bytes]

theorem splice_settle (texts : Substitution → Bytes) (sub : Substitution) (text : Bytes)
    (pieces : Pieces) :
    splice texts (pieces.settle sub text) =
      splice (fun other => if other = sub then text else texts other) pieces := by
  induction pieces with
  | nil => rfl
  | cons piece pieces ih =>
      cases piece with
      | byte b => exact congrArg (b :: ·) ih
      | slot other =>
          change splice texts ((if other = sub then text.map .byte else [.slot other]) ++
            settle sub text pieces) = (if other = sub then text else texts other) ++ splice _ pieces
          rw [splice, List.flatMap_append, ← splice, ← splice, ih]
          split
          · simp [splice, List.flatMap_map]
          · simp [splice]

theorem splice_eq_fill_holed (sub : Substitution) (pieces : Pieces) :
    splice Substitution.placeholder pieces = fill sub.placeholder (pieces.holed sub) := by
  rw [fill_holed]
  congr 1
  funext other
  split
  · rename_i same
    rw [same]
  · rfl

/-- The buffer after a pass: the slots of its substitution filled for good. -/
theorem splice_settle_eq_fill_holed (sub : Substitution) (text : Bytes) (pieces : Pieces) :
    splice Substitution.placeholder (pieces.settle sub text) = fill text (pieces.holed sub) := by
  rw [splice_settle, fill_holed]

/-- The slots after all passes. -/
def settleAll (text : Substitution → Bytes) (pieces : Pieces) (order : List Substitution) :
    Pieces :=
  order.foldl (fun pieces sub => pieces.settle sub (text sub)) pieces

theorem splice_settleAll (text : Substitution → Bytes) (order : List Substitution)
    (pieces : Pieces) :
    splice Substitution.placeholder (pieces.settleAll text order) =
      splice (fun sub => if sub ∈ order then text sub else sub.placeholder) pieces := by
  induction order generalizing pieces with
  | nil => simp [settleAll]
  | cons sub order ih =>
      change splice _ (settleAll text (settle sub (text sub) pieces) order) = _
      rw [ih, splice_settle]
      congr 1
      funext other
      by_cases same : other = sub
      · subst same
        simp
      · simp [same]

end Pieces

/-- Texts for the slots of the pieces are all that matters. -/
theorem splice_congr {texts texts' : Substitution → Bytes} {pieces : Pieces}
    (same : ∀ sub, .slot sub ∈ pieces → texts sub = texts' sub) :
    splice texts pieces = splice texts' pieces := by
  refine List.flatMap_congr fun piece inside => ?_
  cases piece with
  | byte b => rfl
  | slot sub => exact same sub inside

/-! ## The loop -/

section Loop

variable {savedResults : IterableMap String Bytes}

/-- A pass that succeeds finds its placeholder and fills the cut with what it produced. -/
theorem substituteOnce_ok {out next : Bytes} {sub : Substitution}
    (ok : substituteOnce savedResults out sub = .ok next) :
    none ∈ cut sub.placeholder out ∧
      next = fill (produced savedResults sub) (cut sub.placeholder out) := by
  unfold substituteOnce at ok
  cases stored : savedResults.get sub.reference with
  | none => simp [stored] at ok
  | some saved =>
      simp only [stored] at ok
      cases applied : applySubstitutionOp saved sub.op sub.reference with
      | error e =>
          rw [applied] at ok
          cases ok
      | ok text =>
          rw [applied] at ok
          have text_eq : produced savedResults sub = text := by simp [produced, stored, applied]
          by_cases found : containsBytes sub.placeholder out = true
          · have next_eq : replaceBytes sub.placeholder text out = next := by
              have found' : containsBytes (placeholderOf sub.reference) out = true := found
              simpa [Substitution.placeholder, found', bind, Except.bind] using ok
            refine ⟨hole_mem_cut (placeholder_ne_nil sub) found, ?_⟩
            rw [text_eq, ← next_eq, replaceBytes_eq_fill]
          · have failed : containsBytes (placeholderOf sub.reference) out = false :=
              Bool.eq_false_iff.mpr found
            simp [failed, bind, Except.bind] at ok

/-- One pass is as intended exactly when the buffer is, the text is, and the placeholder occurs
in its own slots only. -/
theorem pass_iff (text : Substitution → Bytes) {out next : Bytes} {sub : Substitution}
    (pieces : Pieces) (ok : substituteOnce savedResults out sub = .ok next) :
    cut sub.placeholder out = pieces.holed sub ∧
        next = splice Substitution.placeholder (pieces.settle sub (text sub)) ↔
      out = splice Substitution.placeholder pieces ∧ produced savedResults sub = text sub ∧
        Aligned sub.placeholder (pieces.holed sub) := by
  obtain ⟨hole, next_eq⟩ := substituteOnce_ok ok
  rw [Pieces.splice_settle_eq_fill_holed, Pieces.splice_eq_fill_holed sub, next_eq]
  have kept := fill_cut (placeholder_ne_nil sub) out
  constructor
  · rintro ⟨own, filled⟩
    rw [own] at kept hole filled
    refine ⟨kept.symm, fill_inj hole filled, ?_⟩
    rw [← cut_fill_iff (placeholder_ne_nil sub), kept, own]
  · rintro ⟨buffer, same, aligned⟩
    have own : cut sub.placeholder out = pieces.holed sub := by
      rw [buffer, (cut_fill_iff (placeholder_ne_nil sub) _).mpr aligned]
    rw [own, same]
    exact ⟨rfl, rfl⟩

/-- All passes from a buffer on. -/
theorem passes_iff (text : Substitution → Bytes) {order : List Substitution} {out last : Bytes}
    (pieces : Pieces) (ok : order.foldlM (substituteOnce savedResults) out = .ok last) :
    passCuts savedResults out order = slotCuts text pieces order ∧
        last = splice Substitution.placeholder (pieces.settleAll text order) ↔
      out = splice Substitution.placeholder pieces ∧
        (∀ sub ∈ order, produced savedResults sub = text sub) ∧
          Unscanned text pieces order := by
  induction order generalizing out pieces with
  | nil =>
      have last_eq : out = last := Except.ok.inj ok
      simp [passCuts, slotCuts, Unscanned, Pieces.settleAll, last_eq]
  | cons sub order ih =>
      rw [List.foldlM_cons] at ok
      cases pass : substituteOnce savedResults out sub with
      | error e =>
          rw [pass] at ok
          cases ok
      | ok next =>
          rw [pass] at ok
          have later := ih (pieces.settle sub (text sub)) ok
          have first := pass_iff text pieces pass
          rw [passCuts, slotCuts, pass]
          constructor
          · rintro ⟨cuts, last_eq⟩
            obtain ⟨own, rest⟩ := List.cons.inj cuts
            obtain ⟨buffer, texts, unscanned⟩ := later.mp ⟨rest, last_eq⟩
            obtain ⟨start, same, aligned⟩ := first.mp ⟨own, buffer⟩
            exact ⟨start, List.forall_mem_cons.mpr ⟨same, texts⟩, aligned, unscanned⟩
          · rintro ⟨start, texts, aligned, unscanned⟩
            obtain ⟨same, texts⟩ := List.forall_mem_cons.mp texts
            obtain ⟨own, buffer⟩ := first.mpr ⟨start, same, aligned⟩
            obtain ⟨rest, last_eq⟩ := later.mpr ⟨buffer, texts, unscanned⟩
            refine ⟨?_, last_eq⟩
            rw [own]
            exact congrArg (pieces.holed sub :: ·) rest

variable {template out : Bytes} {subs order : List Substitution}

/-- The loop gives the template with the wanted texts in its own placeholders exactly when the
template is valid UTF-8, the wanted texts are the ones the loop produces, and no pass finds its
placeholder elsewhere. -/
theorem materializeArgs_splices_iff {text : Substitution → Bytes} (reordered : order.Perm subs)
    (ok : materializeArgs template order savedResults = .ok out) :
    Splices text template subs order savedResults out ↔
      (fromUtf8 template).isSome = true ∧
        (∀ sub ∈ order, produced savedResults sub = text sub) ∧
          Unscanned text (piecesOf subs template) order := by
  have settled : splice Substitution.placeholder ((piecesOf subs template).settleAll text order) =
      splice text (piecesOf subs template) := by
    rw [Pieces.splice_settleAll]
    refine splice_congr fun sub inside => if_pos ?_
    exact reordered.mem_iff.mpr (slot_mem_piecesFrom inside)
  have passes := passes_iff text (piecesOf subs template) ok
  rw [splice_piecesOf, fromUtf8Lossy_eq_iff, settled] at passes
  rw [← passes]
  exact ⟨fun splices => ⟨splices.passes, splices.output⟩, fun both => ⟨both.1, both.2⟩⟩

/-- Substitution is simultaneous, in whatever order the passes come, exactly when the template
is valid UTF-8 and no pass finds its placeholder outside the template's own. -/
theorem materializeArgs_simultaneous_iff (reordered : order.Perm subs)
    (ok : materializeArgs template order savedResults = .ok out) :
    Splices (produced savedResults) template subs order savedResults out ↔
      (fromUtf8 template).isSome = true ∧
        Unscanned (produced savedResults) (piecesOf subs template) order := by
  rw [materializeArgs_splices_iff reordered ok]
  exact ⟨fun ⟨valid, _, unscanned⟩ => ⟨valid, unscanned⟩,
    fun ⟨valid, unscanned⟩ => ⟨valid, fun _ _ => rfl, unscanned⟩⟩

/-- So where no pass finds its placeholder elsewhere, the order of the passes is irrelevant. -/
theorem materializeArgs_order_irrelevant {order' : List Substitution} {out' : Bytes}
    (reordered : order.Perm subs) (ok : materializeArgs template order savedResults = .ok out)
    (reordered' : order'.Perm subs)
    (ok' : materializeArgs template order' savedResults = .ok out')
    (valid : (fromUtf8 template).isSome = true)
    (unscanned : Unscanned (produced savedResults) (piecesOf subs template) order)
    (unscanned' : Unscanned (produced savedResults) (piecesOf subs template) order') :
    out = out' := by
  have splices := (materializeArgs_simultaneous_iff reordered ok).mpr ⟨valid, unscanned⟩
  have splices' := (materializeArgs_simultaneous_iff reordered' ok').mpr ⟨valid, unscanned'⟩
  rw [splices.output, splices'.output]

/-- The bytes of every value that is spliced raw are valid UTF-8. -/
def RawLegible (savedResults : IterableMap String Bytes) (order : List Substitution) : Prop :=
  ∀ sub ∈ order, sub.op = .raw →
    ∀ saved, savedResults.get sub.reference = some saved → (fromUtf8 saved).isSome = true

theorem produced_eq_verbatim_iff (sub : Substitution) :
    produced savedResults sub = verbatim savedResults sub ↔
      (sub.op = .raw → ∀ saved, savedResults.get sub.reference = some saved →
        (fromUtf8 saved).isSome = true) := by
  obtain ⟨reference, op⟩ := sub
  cases op with
  | raw =>
      cases stored : savedResults.get reference with
      | none => simp [produced, verbatim, stored]
      | some saved =>
          simp [produced, verbatim, stored, applySubstitutionOp, fromUtf8Lossy_eq_iff]
  | divU128 denominator => simp [verbatim]
  | percentU128 bps => simp [verbatim]

/-- Every byte is kept and raw values come out as they were saved exactly when the template and
those values are valid UTF-8 and no pass finds its placeholder outside the template's own. -/
theorem materializeArgs_verbatim_iff
    (ok : materializeArgs template subs savedResults = .ok out) :
    Splices (verbatim savedResults) template subs subs savedResults out ↔
      (fromUtf8 template).isSome = true ∧ RawLegible savedResults subs ∧
        Unscanned (verbatim savedResults) (piecesOf subs template) subs := by
  rw [materializeArgs_splices_iff (List.Perm.refl subs) ok]
  simp only [produced_eq_verbatim_iff, RawLegible]

end Loop

/-! ## Two templates -/

/-- A saved value that is itself the placeholder of the other one. -/
def chainedResults : IterableMap String Bytes :=
  (IterableMap.empty.insert "a" (utf8Bytes "\"$\x7bb\x7d\"")).insert "b" (utf8Bytes "1")

def chainedTemplate : Bytes := utf8Bytes "[\"$\x7ba\x7d\",\"$\x7bb\x7d\"]"

def chainedSubs : List Substitution := [⟨"a", .raw⟩, ⟨"b", .raw⟩]

/-- The value of `a` is scanned for the placeholder of `b`; in the other order it is not. -/
theorem spliced_text_scanned :
    materializeArgs chainedTemplate chainedSubs chainedResults = .ok (utf8Bytes "[1,1]") ∧
      ¬ Splices (produced chainedResults) chainedTemplate chainedSubs chainedSubs chainedResults
        (utf8Bytes "[1,1]") ∧
      materializeArgs chainedTemplate chainedSubs.reverse chainedResults =
        .ok (utf8Bytes "[\"$\x7bb\x7d\",1]") := by
  refine ⟨by decide, fun splices => ?_, by decide⟩
  exact absurd splices.output (by decide)

theorem materializeArgs_simultaneous_iff_reversed :
    Splices (produced chainedResults) chainedTemplate chainedSubs chainedSubs.reverse
      chainedResults (utf8Bytes "[\"$\x7bb\x7d\",1]") :=
  (materializeArgs_simultaneous_iff (List.reverse_perm _) (by decide)).mpr
    ⟨by decide, by decide⟩

/-- A template with a byte that is not UTF-8, and a saved value that is such a byte. -/
def binaryTemplate : Bytes := 0xFF :: utf8Bytes "\"$\x7bx\x7d\""

def binaryResults : IterableMap String Bytes := IterableMap.empty.insert "x" [0xC3]

/-- Each of the two bytes comes out as three others. -/
theorem binary_bytes_replaced :
    materializeArgs binaryTemplate [⟨"x", .raw⟩] binaryResults =
        .ok [0xEF, 0xBF, 0xBD, 0xEF, 0xBF, 0xBD] ∧
      ¬ Splices (verbatim binaryResults) binaryTemplate [⟨"x", .raw⟩] [⟨"x", .raw⟩]
        binaryResults [0xEF, 0xBF, 0xBD, 0xEF, 0xBF, 0xBD] := by
  refine ⟨by decide, fun splices => ?_⟩
  exact absurd splices.output (by decide)

theorem materializeArgs_verbatim_iff_quoted :
    Splices (verbatim chainedResults) (utf8Bytes "[\"$\x7bb\x7d\"]") [⟨"b", .raw⟩]
      [⟨"b", .raw⟩] chainedResults (utf8Bytes "[1]") := by
  refine (materializeArgs_verbatim_iff (by decide)).mpr ⟨by decide, ?_,
    by decide⟩
  intro sub inside raw saved stored
  obtain rfl := List.mem_singleton.mp inside
  have one : chainedResults.get "b" = some (utf8Bytes "1") := by decide
  obtain rfl := Option.some.inj (one.symm.trans stored)
  decide

end SmartAccount
