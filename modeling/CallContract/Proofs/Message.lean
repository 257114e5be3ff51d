import CallContract.Proofs.Expectation.Grammar
import CallContract.Proofs.Operation

/-!
# What a message about a mismatch tells

A message about a mismatch has nine words, and three of them vary: the position, what is expected there, and the kind
that was passed. None of the three has a blank in it, so the words are the segments between blanks
(`splits_mismatchMessage`) and the message can be taken apart in one way only (`mismatchMessage_inj`).

* Entries of a report are about different positions, so their messages differ (`Report.unambiguous_of_tells`).
* A mismatch stops an operation only where it is the first one (`Operation.exists_firstMismatch`), so the message of
  the exception tells what the first mismatch is (`Operation.Tells`).
-/

namespace CallContract

/-- The message that the argument at a position is not what a text expects, but of a kind. -/
def mismatchMessage (position : Nat) (text : String) (kind : Kind) : String :=
  "Argument number " ++ toString position ++ " must be " ++ text ++ ", " ++ kind.name ++ " was passed."

/-! ## Words without blanks -/

theorem Kind.ofName?_name (k : Kind) : ofName? k.name = some k := by
  cases k <;> rfl

theorem Kind.name_injective : Function.Injective name := by
  intro k l h
  exact Option.some.inj (k.ofName?_name.symm.trans (h ▸ l.ofName?_name))

theorem Kind.blank_not_mem_name (k : Kind) : ' ' ∉ k.name.toList := by
  cases k <;> decide

theorem Text.blank_not_mem_toString (n : Nat) : ' ' ∉ (toString n).toList := by
  intro h
  rw [Nat.toString_eq_repr, Nat.toList_repr] at h
  exact absurd (Nat.isDigit_of_mem_toDigits (by decide) (by decide) h) (by decide)

theorem Expectation.blank_not_mem {text : String} (h : WellFormed text) : ' ' ∉ text.toList := by
  obtain ⟨e, he⟩ := exists_parse_eq_ok_iff.2 h
  obtain rfl := raw_eq_of_parse he
  exact fun hblank => absurd (isLower_of_mem_raw hblank) (by decide)

theorem Expectation.wellFormed_raw (e : Expectation) : WellFormed e.raw :=
  exists_parse_eq_ok_iff.1 ⟨e, e.parse_raw⟩

theorem Expectation.parseList_map_raw {es : List Expectation} (h : es ≠ []) : parseList (es.map raw) = .ok es := by
  refine parseList_eq_ok_iff.2 ⟨fun hnil => h (List.map_eq_nil_iff.1 hnil), ?_⟩
  rw [List.forall₂_map_left_iff, List.forall₂_same]
  exact fun e _ => e.parse_raw

/-! ## The message taken apart -/

section Words

variable {p q : Nat} {e f : String} {k l : Kind}

/-- The nine words, with blanks between them. -/
theorem intercalate_words (digits text name : String) : (String.singleton ' ').intercalate
      ["Argument", "number", digits, "must", "be", text ++ ",", name, "was", "passed."] =
    "Argument number " ++ digits ++ " must be " ++ text ++ ", " ++ name ++ " was passed." := by
  have hblank : String.singleton ' ' = " " := rfl
  -- the fixed texts of the message, cut at their blanks
  have hstart : "Argument number " = "Argument" ++ " " ++ "number" ++ " " := by decide
  have hmust : " must be " = " " ++ "must" ++ " " ++ "be" ++ " " := by decide
  have hcomma : ", " = "," ++ " " := by decide
  have hend : " was passed." = " " ++ "was" ++ " " ++ "passed." := by decide
  simp only [hblank, hstart, hmust, hcomma, hend, String.append_assoc, String.intercalate_cons_of_ne_nil, ne_eq,
    List.cons_ne_nil, not_false_eq_true, String.intercalate_singleton]

theorem splits_mismatchMessage (p : Nat) (k : Kind) (he : Expectation.WellFormed e) :
    Text.Splits ' ' (mismatchMessage p e k)
      ["Argument", "number", toString p, "must", "be", e ++ ",", k.name, "was", "passed."] where
  ne_nil := List.cons_ne_nil _ _
  free := by
    simp only [List.forall_mem_cons]
    refine ⟨by decide, by decide, Text.blank_not_mem_toString p, by decide, by decide, ?_, k.blank_not_mem_name,
      by decide, by decide, nofun⟩
    rw [String.toList_append, List.mem_append, not_or]
    exact ⟨Expectation.blank_not_mem he, by decide⟩
  joined := intercalate_words _ _ _

/-- **A message about a mismatch can be taken apart in one way only.** -/
theorem mismatchMessage_inj (he : Expectation.WellFormed e) (hf : Expectation.WellFormed f)
    (h : mismatchMessage p e k = mismatchMessage q f l) : p = q ∧ e = f ∧ k = l := by
  have hwords := Text.pieces_eq_iff.2 (splits_mismatchMessage p k he)
  rw [h, Text.pieces_eq_iff.2 (splits_mismatchMessage q l hf)] at hwords
  simp only [List.cons.injEq, true_and, and_true] at hwords
  obtain ⟨hposition, htext, hkind⟩ := hwords
  refine ⟨?_, ?_, ?_⟩
  · exact Arguments.toString_injective hposition.symm
  · exact (String.append_left_inj _).1 htext.symm
  · exact Kind.name_injective hkind.symm

end Words

/-! ## The messages of a report -/

/-- No two messages of a report are the same, and each tells the position that it is recorded under. -/
structure Report.Unambiguous (r : Report) : Prop where
  nodup : r.messages.Nodup
  tells : ∀ p f, r.failure? p = some f → ∃ text kind, Expectation.WellFormed text ∧
    f.message = mismatchMessage p text kind

/-- Messages that tell their positions differ, because the positions do. -/
theorem Report.unambiguous_of_tells {r : Report} (h : ∀ p f, r.failure? p = some f →
    ∃ text kind, Expectation.WellFormed text ∧ f.message = mismatchMessage p text kind) : r.Unambiguous where
  nodup := by
    rw [messages, List.Nodup, List.pairwise_map]
    refine r.pairwise_entries.imp_of_mem fun {earlier later} hearlier hlater hlt heq => ?_
    obtain ⟨e, k, he, hfirst⟩ := h earlier.1 earlier.2 (r.failure?_eq_some_iff.2 hearlier)
    obtain ⟨f, l, hf, hsecond⟩ := h later.1 later.2 (r.failure?_eq_some_iff.2 hlater)
    obtain ⟨hposition, -⟩ := mismatchMessage_inj he hf (hfirst.symm.trans (heq.trans hsecond))
    exact Nat.ne_of_lt hlt hposition
  tells := h

theorem Call.message_faultAt (c : Call) (i : Nat) :
    (c.faultAt i).message = mismatchMessage (i + 1) (c.expectationAt i).raw (c.kindAt i) := rfl

/-- **A report is unambiguous.** -/
theorem Call.unambiguous_of_report {c : Call} {indexing : Indexing} {r : Report}
    (h : c.report .reporting indexing = .ok r) : r.Unambiguous := by
  obtain ⟨s, hs, hentries⟩ := c.report_reporting indexing
  obtain rfl : s = r := Except.ok.inj (hs.symm.trans h)
  refine Report.unambiguous_of_tells fun p f hf => ?_
  obtain ⟨i, rfl, -, rfl⟩ := (failure?_eq_some_iff hentries).1 hf
  exact ⟨_, _, (c.expectationAt i).wellFormed_raw, c.message_faultAt i⟩

namespace Validator

variable {v : Validator} {a : Arguments} {es : List Expectation} {r : Report}

theorem unambiguous_of_reportOn (h : v.reportOn .reporting a es = .ok r) : r.Unambiguous := by
  rcases reportOn_cases a es with ⟨fault, -, hfault⟩ | ⟨hlength, hmatch⟩
  · exact nomatch (hfault v .reporting).symm.trans h
  · exact Call.unambiguous_of_report ((hmatch v .reporting).symm.trans h)

theorem unambiguous_of_check {texts : List String} (h : v.check a texts = .ok r) : r.Unambiguous := by
  obtain ⟨es, hlength, -, hr⟩ := v.report_of_check h
  exact Call.unambiguous_of_report hr

theorem unambiguous_of_checkSignature {s : Signature} (h : v.checkSignature a s = .ok r) : r.Unambiguous := by
  cases hreport : v.reportOn .reporting a s.compiled with
  | error fault => exact nomatch (v.checkSignature_of_error hreport).symm.trans h
  | ok r' =>
    obtain rfl : r' = r := Except.ok.inj ((v.checkSignature_of_ok hreport).symm.trans h)
    exact unambiguous_of_reportOn hreport

end Validator

/-! ## The first mismatch -/

/-- The first mismatch of arguments and texts: its position, the text there and the kind of the argument there. -/
structure Arguments.FirstMismatch (a : Arguments) (texts : List String) (p : Nat) (text : String) (kind : Kind) :
    Prop where
  mismatches : a.mismatches texts p = true
  first : ∀ q < p, a.mismatches texts q = false
  text_at : texts[p - 1]? = some text
  kind_at : (a.get? (p - 1)).map Value.kind = some kind

theorem Arguments.FirstMismatch.unique {a : Arguments} {texts : List String} {p q : Nat} {e f : String} {k l : Kind}
    (h : a.FirstMismatch texts p e k) (h' : a.FirstMismatch texts q f l) : p = q ∧ e = f ∧ k = l := by
  obtain rfl : p = q := Call.eq_of_first h.mismatches h.first h'.mismatches h'.first
  exact ⟨rfl, Option.some.inj (h.text_at.symm.trans h'.text_at), Option.some.inj (h.kind_at.symm.trans h'.kind_at)⟩

theorem Call.firstMismatch {a : Arguments} {es : List Expectation} {hlength : es.length = a.size} {i : Nat}
    (hm : (ofLengthEq a es hlength).mismatches i = true)
    (hfirst : ∀ j < i, (ofLengthEq a es hlength).mismatches j = false) :
    a.FirstMismatch (es.map Expectation.raw) (i + 1) ((ofLengthEq a es hlength).expectationAt i).raw
      ((ofLengthEq a es hlength).kindAt i) := by
  have hi : i < a.size := lt_size_of_mismatches hm
  have hne : es ≠ [] := List.ne_nil_of_length_pos (hlength ▸ Nat.zero_lt_of_lt hi)
  have hparse := Expectation.parseList_map_raw hne
  obtain ⟨value, text, e, hvalue, htext, hread, hkind, hexpectation⟩ := exists_at hparse hlength hi
  refine ⟨(mismatches_ofLengthEq hparse hlength).symm.trans hm, ?_, ?_, ?_⟩
  · intro q hq
    cases q with
    | zero => rfl
    | succ j =>
      exact (mismatches_ofLengthEq hparse hlength).symm.trans (hfirst j (Nat.lt_of_succ_lt_succ hq))
  · rw [Nat.add_sub_cancel, htext, hexpectation, Expectation.raw_eq_of_parse hread]
  · rw [Nat.add_sub_cancel, hvalue, hkind, Option.map_some]

/-- A strict matching with a first mismatch ends with its fault. -/
theorem Call.report_strict_of_first {c : Call} {i : Nat} (hm : c.mismatches i = true)
    (hfirst : ∀ j < i, c.mismatches j = false) (indexing : Indexing) :
    c.report .strict indexing = .error (c.faultAt i) := by
  rcases c.report_strict indexing with ⟨-, hall⟩ | ⟨j, hs, hmj, hfirstj⟩
  · exact nomatch (hall i).symm.trans hm
  · rwa [eq_of_first hm hfirst hmj hfirstj]

/-- A mismatch comes from expectations that the texts write. -/
theorem Validator.exists_reportOn_of_validate {v : Validator} {mode : Mode} {a : Arguments} {texts : List String}
    {fault : Fault} (h : v.validate mode a texts = .error fault) (hcategory : fault.category = .argumentType) :
    ∃ es : List Expectation, es.map Expectation.raw = texts ∧ v.reportOn mode a es = .error fault := by
  cases hparse : Expectation.parseList texts with
  | error e =>
    obtain rfl := Except.error.inj ((v.validate_of_parse_error hparse).symm.trans h)
    exact nomatch hcategory
  | ok es => exact ⟨es, Expectation.map_raw_of_parseList hparse, (v.validate_of_parse hparse).symm.trans h⟩

/-- A mismatch comes from the arguments and the expectations that were read. -/
theorem Validator.exists_reportOn_of_reportDynamic {v : Validator} {mode : Mode} {object expectations : Value}
    {fault : Fault} (h : v.reportDynamic mode object expectations = .error fault)
    (hcategory : fault.category = .argumentType) : ∃ a es, Arguments.ofObject? object = some a ∧
      parseDynamic expectations = .ok es ∧ v.reportOn mode a es = .error fault := by
  rcases v.reportDynamic_cases mode object expectations with ⟨other, hother, hfault⟩ | ⟨a, es, hobject, hparse, hreport⟩
  · obtain rfl := Except.error.inj (hfault.symm.trans h)
    rw [hcategory] at hother
    rcases hother with hmissing | hinvalid | hraises
    · exact nomatch hmissing
    · exact nomatch hinvalid
    · -- the numbers are compared in reporting mode too, which raises no mismatch
      cases hraises .reporting with
      | argumentType hstrict => exact nomatch hstrict
  · exact ⟨a, es, hobject, hparse, hreport.symm.trans h⟩

namespace Operation

variable {m : Type → Type} {α : Type}

/-- The arguments that an operation compares, and the texts it compares them with. -/
def compared? : Operation m α → Option (Arguments × List String)
  | .expect a texts | .expectWith a texts _ | .check a texts => some (a, texts)
  | .expectSignature a s | .checkSignature a s => some (a, s.compiled.map Expectation.raw)
  | .expectDynamic _ object expectations _ => do
    let a ← Arguments.ofObject? object
    let es ← (Validator.parseDynamic expectations).toOption
    some (a, es.map Expectation.raw)

/-- The first mismatch of what an operation compares. -/
def FirstMismatch (op : Operation m α) (p : Nat) (text : String) (kind : Kind) : Prop :=
  ∃ a texts, op.compared? = some (a, texts) ∧ a.FirstMismatch texts p text kind

variable {v : Validator} {op : Operation m α} {fault : Fault}

/-- A mismatch that stops an operation comes from matching what the operation compares. -/
theorem exists_reportOn_of_report (h : op.report v = .error fault) (hcategory : fault.category = .argumentType) :
    ∃ mode a es, op.compared? = some (a, es.map Expectation.raw) ∧ v.reportOn mode a es = .error fault := by
  cases op with
  | expect a texts =>
    obtain ⟨es, rfl, hes⟩ := Validator.exists_reportOn_of_validate h hcategory
    exact ⟨.strict, a, es, rfl, hes⟩
  | expectWith a texts callback | check a texts =>
    obtain ⟨es, rfl, hes⟩ := Validator.exists_reportOn_of_validate h hcategory
    exact ⟨.reporting, a, es, rfl, hes⟩
  | expectSignature a s => exact ⟨.strict, a, s.compiled, rfl, h⟩
  | checkSignature a s => exact ⟨.reporting, a, s.compiled, rfl, h⟩
  | expectDynamic call object expectations callback =>
    rcases report_expectDynamic_eq_error_iff.1 h with hreport | ⟨-, hcallback⟩
    · obtain ⟨a, es, hobject, hparse, hes⟩ := Validator.exists_reportOn_of_reportDynamic hreport hcategory
      refine ⟨_, a, es, ?_, hes⟩
      rw [compared?, hobject, hparse]
      rfl
    · obtain ⟨-, -, rfl⟩ := callbackFault?_eq_some_iff.1 hcallback
      exact nomatch hcategory

/-- The message of a mismatch that stops an operation is that of the first mismatch. -/
theorem exists_firstMismatch (h : op.report v = .error fault) (hcategory : fault.category = .argumentType) :
    ∃ p text kind, op.FirstMismatch p text kind ∧ Expectation.WellFormed text ∧
      fault.message = mismatchMessage p text kind := by
  obtain ⟨mode, a, es, hcompared, hreport⟩ := exists_reportOn_of_report h hcategory
  rcases Validator.reportOn_cases a es with ⟨other, hother, hfault⟩ | ⟨hlength, hmatch⟩
  · obtain rfl := Except.error.inj ((hfault v mode).symm.trans hreport)
    exact absurd hcategory hother
  · rw [hmatch v mode] at hreport
    cases mode with
    | reporting =>
      obtain ⟨r, hr, -⟩ := (Call.ofLengthEq a es hlength).report_reporting v.config.indexing
      exact nomatch hr.symm.trans hreport
    | strict =>
      rcases (Call.ofLengthEq a es hlength).report_strict v.config.indexing with ⟨hs, -⟩ | ⟨i, hs, hm, hfirst⟩
      · exact nomatch hs.symm.trans hreport
      · obtain rfl := Except.error.inj (hs.symm.trans hreport)
        exact ⟨i + 1, _, _, ⟨a, _, hcompared, Call.firstMismatch hm hfirst⟩, Expectation.wellFormed_raw _,
          Call.message_faultAt _ i⟩

/-- The message tells one mismatch, and this is the first of what the operation compares. -/
structure Tells (op : Operation m α) (message : String) (p : Nat) (text : String) (kind : Kind) : Prop where
  wellFormed : Expectation.WellFormed text
  message_eq : message = mismatchMessage p text kind
  first_iff : ∀ q f l, op.FirstMismatch q f l ↔ p = q ∧ text = f ∧ kind = l

theorem FirstMismatch.tells {p : Nat} {text message : String} {kind : Kind} (h : op.FirstMismatch p text kind)
    (hwell : Expectation.WellFormed text) (hmessage : message = mismatchMessage p text kind) :
    op.Tells message p text kind where
  wellFormed := hwell
  message_eq := hmessage
  first_iff q f l := by
    constructor
    · rintro ⟨b, others, hb, hother⟩
      obtain ⟨a, texts, ha, hfirst⟩ := h
      obtain ⟨rfl, rfl⟩ := Prod.mk.inj (Option.some.inj (ha.symm.trans hb))
      exact hfirst.unique hother
    · rintro ⟨rfl, rfl, rfl⟩
      exact h

theorem answer_ne_error (op : Operation Id α) (r : Report) (e : Exception) : op.answer r ≠ .error e := by
  cases op with
  | expectDynamic call object expectations callback => cases callback <;> exact nofun
  | _ => exact nofun

/-- Where nothing else acts, an exception is a fault of the report. -/
theorem exists_fault_of_run {op : Operation Id α} {e : Exception} (h : op.run v = .error e) :
    ∃ fault, op.report v = .error fault ∧ fault.raise v.config = e := by
  cases hreport : op.report v with
  | error fault => exact ⟨fault, rfl, Except.error.inj ((run_of_report_error hreport).symm.trans h)⟩
  | ok r => exact absurd ((run_of_report hreport).symm.trans h) (op.answer_ne_error r e)

/-- **The message of a strict failure tells the first mismatch.** -/
theorem exists_tells_of_run {op : Operation Id α} {e : Exception} (h : op.run v = .error e)
    (hkind : e.kind = .argumentType) : ∃ p text kind, op.Tells e.message p text kind := by
  obtain ⟨fault, hreport, rfl⟩ := exists_fault_of_run h
  rw [Fault.kind_raise] at hkind
  obtain ⟨p, text, kind, hfirst, hwell, hmessage⟩ := exists_firstMismatch hreport hkind
  exact ⟨p, text, kind, hfirst.tells hwell ((fault.message_raise v.config).trans hmessage)⟩

/-- Strict failures with the same message have the same first mismatch. -/
theorem firstMismatch_iff_of_message_eq {β : Type} {v' : Validator} {op : Operation Id α} {op' : Operation Id β}
    {e e' : Exception} (h : op.run v = .error e) (h' : op'.run v' = .error e') (hkind : e.kind = .argumentType)
    (hkind' : e'.kind = .argumentType) (hmessage : e.message = e'.message) (p : Nat) (text : String) (kind : Kind) :
    op.FirstMismatch p text kind ↔ op'.FirstMismatch p text kind := by
  obtain ⟨_, _, _, ht⟩ := exists_tells_of_run h hkind
  obtain ⟨_, _, _, ht'⟩ := exists_tells_of_run h' hkind'
  obtain ⟨rfl, rfl, rfl⟩ := mismatchMessage_inj ht.wellFormed ht'.wellFormed
    (ht.message_eq.symm.trans (hmessage.trans ht'.message_eq))
  rw [ht.first_iff, ht'.first_iff]

end Operation

/-! ## All messages -/

/-- **Messages about mismatches are unambiguous.** Different mismatches have different messages, so no two messages of
a report are the same, and the message of a strict failure tells the first mismatch: strict failures with the same
message have stopped at the same position, text and kind, whatever was asked for. -/
theorem messages_unambiguous :
    (∀ (p q : Nat) (e f : String) (k l : Kind), Expectation.WellFormed e → Expectation.WellFormed f →
        mismatchMessage p e k = mismatchMessage q f l → p = q ∧ e = f ∧ k = l) ∧
      (∀ (v : Validator) (a : Arguments) (texts : List String) (r : Report),
        v.check a texts = .ok r → r.Unambiguous) ∧
      (∀ (v : Validator) (a : Arguments) (s : Signature) (r : Report),
        v.checkSignature a s = .ok r → r.Unambiguous) ∧
      (∀ (α : Type) (v : Validator) (op : Operation Id α) (e : Exception),
        op.run v = .error e → e.kind = .argumentType → ∃ p text kind, op.Tells e.message p text kind) ∧
      ∀ (α β : Type) (v v' : Validator) (op : Operation Id α) (op' : Operation Id β) (e e' : Exception),
        op.run v = .error e → op'.run v' = .error e' → e.kind = .argumentType → e'.kind = .argumentType →
          e.message = e'.message → ∀ p text kind, op.FirstMismatch p text kind ↔ op'.FirstMismatch p text kind :=
  ⟨fun _ _ _ _ _ _ => mismatchMessage_inj,
    fun _ _ _ _ => Validator.unambiguous_of_check, fun _ _ _ _ => Validator.unambiguous_of_checkSignature,
    fun _ _ _ _ => Operation.exists_tells_of_run, fun _ _ _ _ _ _ _ _ => Operation.firstMismatch_iff_of_message_eq⟩

/-- Three mismatches in a row, reported and raised, against texts and against a signature. -/
theorem messages_unambiguous_three :
    let a := Arguments.ofList [.ofNat 1, .string "b", .bool true]
    let texts := ["string|object", "number", "string"]
    let s : Signature := ⟨"f", none, texts, [⟨.string, [.object]⟩, ⟨.number, []⟩, ⟨.string, []⟩]⟩
    let strict : Operation Id Bool := .expect a texts
    let signed : Operation Id Bool := .expectSignature a s
    (∀ p, mismatchMessage p "string|object" .number = mismatchMessage 1 "string|object" .number → p = 1) ∧
      (∃ r, Validator.check {} a texts = .ok r ∧ r.Unambiguous) ∧
      (∃ r, Validator.checkSignature {} a s = .ok r ∧ r.Unambiguous) ∧
      ∃ e : Exception, strict.run {} = .error e ∧ signed.run {} = .error e ∧
        strict.Tells e.message 1 "string|object" .number ∧
        ∀ p text kind, strict.FirstMismatch p text kind ↔ signed.FirstMismatch p text kind := by
  intro a texts s strict signed
  obtain ⟨hmessages, hcheck, hsignature, hstrict, hsame⟩ := messages_unambiguous
  have hwell : Expectation.WellFormed "string|object" :=
    Expectation.exists_parse_eq_ok_iff.1 (wellFormed_three _ List.mem_cons_self)
  let c := Call.ofLengthEq a s.compiled rfl
  have hfirst : c.report .strict .consistent = .error (c.faultAt 0) :=
    Call.report_strict_of_first rfl (fun _ h => absurd h (Nat.not_lt_zero _)) .consistent
  have hreport : Validator.reportOn {} .strict a s.compiled = .error (c.faultAt 0) :=
    (Validator.reportOn_of_eq {} (by decide) rfl).trans hfirst
  have hraised : strict.run {} = .error ((c.faultAt 0).raise {}) :=
    Validator.expect_of_error {} ((Validator.validate_of_parse {} rfl).trans hreport)
  have hsigned : signed.run {} = .error ((c.faultAt 0).raise {}) := Validator.expectSignature_of_error {} hreport
  obtain ⟨r, hr, -⟩ := c.report_reporting .consistent
  have hreported : Validator.reportOn {} .reporting a s.compiled = .ok r :=
    (Validator.reportOn_of_eq {} (by decide) rfl).trans hr
  have hchecked : Validator.check {} a texts = .ok r :=
    Validator.check_of_ok {} ((Validator.validate_of_parse {} rfl).trans hreported)
  have hcheckedSignature : Validator.checkSignature {} a s = .ok r := Validator.checkSignature_of_ok {} hreported
  refine ⟨fun p h => (hmessages _ _ _ _ _ _ hwell hwell h).1, ⟨r, hchecked, hcheck _ _ _ _ hchecked⟩,
    ⟨r, hcheckedSignature, hsignature _ _ _ _ hcheckedSignature⟩, _, hraised, hsigned, ?_,
    hsame _ _ _ _ _ _ _ _ hraised hsigned rfl rfl rfl⟩
  obtain ⟨p, text, kind, ht⟩ := hstrict _ _ _ _ hraised rfl
  obtain ⟨rfl, rfl, rfl⟩ := hmessages _ _ _ _ _ _ ht.wellFormed hwell ht.message_eq.symm
  exact ht

end CallContract
