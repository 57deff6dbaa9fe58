import Vetting.Proofs.AddedSegments
import Vetting.Proofs.TransactionIds
import Vetting.Service.Outgoing

/-! # Where log entries are confirmed

An entry of the partner's log is confirmed at an address with the entry's id as its last segment,
and the id is any text that the partner sent. Main statement: an id of plain text makes one segment
that denotes it, so entries are told apart and no id is the address of another call. The other ids
are the dots, which name the log itself, and those with tabs or line ends, which are taken without
them. -/

namespace Vetting.Outgoing

open Text (utf8)
open Url (IsPlain IsOneSegment addAll addSegment encodeSegment isSpecial stem stripped)

/-- Where a call of the core service goes, below the base. -/
def tail (c : Call) : List (List Char) :=
  addAll ["api".toList, "core".toList] ((askOf c).segments.drop 2)

def logTail : List (List Char) := log.map String.toList

theorem core_segments {c : Call} (hc : c.service = .core) :
    (askOf c).segments = "api" :: "core" :: (askOf c).segments.drop 2 := by
  cases c with
  | ask route caller body => cases route <;> cases hc
  | _ => rfl

/-- Segments that stand in addresses whatever is asked for. -/
def fixed : List String :=
  ["api", "core", "logging", "transaction", "product-catalog", "processed_count", "member",
    "grading", "product"]

theorem isPlain_of_fixed : ∀ s ∈ fixed, IsPlain s ∧ encodeSegment true s = s.toList := by
  decide +kernel

theorem ofCall_core {a : Addresses} {ss : List (List Char)}
    (hspecial : isSpecial a.core.scheme = true) (hpath : a.core.path = .segments ss) {c : Call}
    (hc : c.service = .core) :
    ∃ o, ofCall a c = .ok o ∧ o.service = .core ∧ o.method = (askOf c).method ∧
      o.url.path = .segments (stem ss ++ tail c) ∧
      ((askOf c).query = [] → o.url = { a.core with path := .segments (stem ss ++ tail c) }) := by
  have hapi := isPlain_of_fixed "api" (by decide)
  have hcore := isPlain_of_fixed "core" (by decide)
  have hbelow : (a.of c.service).below? (askOf c).segments =
      some { a.core with path := .segments (stem ss ++ tail c) } := by
    rw [hc, core_segments hc, Addresses.of,
      Url.below?_of_plain hspecial hpath hapi.1 hcore.1 (by rw [hapi.2]; decide), hapi.2, hcore.2]
    rfl
  simp only [ofCall, hbelow]
  refine ⟨_, rfl, hc, rfl, ?_, fun hnone => ?_⟩
  · dsimp only
    split <;> rfl
  · simp [hnone]

/-! ## The log and what is below it -/

theorem isPlain_decimal (n : UInt64) : IsPlain (decimal n) := by
  have hdigit {c : Char} (hc : c ∈ (decimal n).toList) : c.isDigit = true :=
    Text.isDigit_of_mem_toString hc
  refine ⟨fun h => ?_, fun h => ?_, fun c hc => ?_⟩
  · exact absurd (hdigit (c := '.') (by rw [h]; decide)) (by decide)
  · exact absurd (hdigit (c := '.') (by rw [h]; decide)) (by decide)
  · have hd := hdigit hc
    refine Bool.eq_false_iff.mpr fun hdropped => ?_
    simp only [Url.isDropped, Bool.or_eq_true, decide_eq_true_eq] at hdropped
    rcases hdropped with (rfl | rfl) | rfl <;> exact absurd hd (by decide)

theorem addAll_log : addAll ["api".toList, "core".toList] ["logging", "transaction",
    "product-catalog"] = logTail := by
  decide +kernel

theorem tail_writeLog (e : LogEntry) : tail (.writeLog e) = logTail := addAll_log

theorem tail_confirmLog (id : String) : tail (.confirmLog id) = addSegment true logTail id := by
  rw [← addAll_log]
  rfl

theorem length_tail_processedCount (job : UInt64) : (tail (.processedCount job)).length = 7 := by
  have hall : ∀ s ∈ (askOf (.processedCount job)).segments.drop 2, IsPlain s := by
    intro s hs
    have hmem : s ∈ ["logging", "transaction", "product-catalog", decimal job,
      "processed_count"] := hs
    simp only [List.mem_cons, List.not_mem_nil, or_false] at hmem
    rcases hmem with rfl | rfl | rfl | rfl | rfl
    · exact (isPlain_of_fixed _ (by decide)).1
    · exact (isPlain_of_fixed _ (by decide)).1
    · exact (isPlain_of_fixed _ (by decide)).1
    · exact isPlain_decimal job
    · exact (isPlain_of_fixed _ (by decide)).1
  rw [tail, Url.addAll_of_plain (by decide) hall]
  rfl

/-- What stands third below the base tells the calls apart that are not about the log. -/
theorem third_of_tail {c : Call} {third : String} {more : List String}
    (hsegments : (askOf c).segments.drop 2 = third :: more)
    (hthird : IsPlain third ∧ encodeSegment true third = third.toList) :
    (tail c)[2]? = some third.toList ∨ (tail c)[2]? = some [] := by
  rw [tail, hsegments, addAll, List.foldl_cons, Url.addSegment_of_plain hthird.1,
    Url.trunk_of_length (by decide), hthird.2]
  exact Url.kept_addAll (by simp) more (.inl rfl)

/-- Only the calls about the log go there, and below it. -/
theorem of_third_logging {c : Call} (hc : c.service = .core)
    (h : (tail c)[2]? = some "logging".toList) :
    (∃ e, c = .writeLog e) ∨ (∃ job, c = .processedCount job) ∨ ∃ id, c = .confirmLog id := by
  have hother (third : String) {more : List String}
      (hsegments : (askOf c).segments.drop 2 = third :: more)
      (hthird : third ∈ ["member", "grading", "product"]) : False := by
    have hmem : third ∈ fixed ∧ some third.toList ≠ some "logging".toList := by
      simp only [List.mem_cons, List.not_mem_nil, or_false] at hthird
      rcases hthird with rfl | rfl | rfl <;> decide
    obtain ⟨hmem, hne⟩ := hmem
    rcases third_of_tail hsegments (isPlain_of_fixed third hmem) with heq | heq
    · exact hne (heq.symm.trans h)
    · exact absurd (heq.symm.trans h) (by decide)
  cases c with
  | writeLog e => exact .inl ⟨e, rfl⟩
  | processedCount job => exact .inr (.inl ⟨job, rfl⟩)
  | confirmLog id => exact .inr (.inr ⟨id, rfl⟩)
  | ask route caller body => cases route <;> cases hc
  | subscription company slug => exact (hother "member" rfl (by decide)).elim
  | quota q => exact (hother "member" rfl (by decide)).elim
  | grades company => exact (hother "grading" rfl (by decide)).elim
  | createJob r => exact (hother "product" rfl (by decide)).elim
  | updateJob job u => exact (hother "product" rfl (by decide)).elim
  | listJobs s slug f => exact (hother "product" rfl (by decide)).elim
  | jobDetails s slug job f => exact (hother "product" rfl (by decide)).elim
  | jobsSummary s slug f => exact (hother "product" rfl (by decide)).elim

theorem whole_tail (c : Call) : ∀ x ∈ tail c, '/' ∉ x :=
  Url.whole_addAll (by decide) (by decide) _

/-- Below one base, calls that go to the same path have the same segments. -/
theorem tail_eq_of_render {ss : List (List Char)} {c c' : Call}
    (h : (Url.Path.segments (stem ss ++ tail c)).render =
      (Url.Path.segments (stem ss ++ tail c')).render) : tail c = tail c' := by
  refine Url.segments_injective (whole_tail c) (whole_tail c') ?_
  simpa [Url.Path.render] using h

/-- An id of plain text has an address of its own. -/
structure OwnAddress (a : Addresses) (ss : List (List Char)) (id : String) (o : Outgoing) :
    Prop where
  /-- The log's address has one more segment, which denotes the id. -/
  segment : ∃ segment,
    o.url = { a.core with path := .segments (stem ss ++ (logTail ++ [segment])) } ∧
      IsOneSegment segment ∧ Url.decode (utf8 (String.ofList segment)) = utf8 id
  /-- It is the address of no other plain id. -/
  apart : ∀ id' o', IsPlain id' → ofCall a (.confirmLog id') = .ok o' →
    o'.url.path.render = o.url.path.render → id' = id
  /-- It is the address of no other call. -/
  alone : ∀ c o', c.service = .core → ofCall a c = .ok o' →
    o'.url.path.render = o.url.path.render → ∃ id', c = .confirmLog id'

theorem tail_of_plain {id : String} (h : IsPlain id) :
    tail (.confirmLog id) = logTail ++ [encodeSegment true id] := by
  rw [tail_confirmLog, Url.addSegment_of_plain h, Url.trunk_of_length (by decide)]

theorem decode_of_plain {id : String} (h : IsPlain id) :
    Url.decode (utf8 (String.ofList (encodeSegment true id))) = utf8 id := by
  rw [Url.decode_encodeSegment, Url.stripped_of_plain h.2.2]

theorem ownAddress_of_plain {a : Addresses} {ss : List (List Char)}
    (hspecial : isSpecial a.core.scheme = true) (hpath : a.core.path = .segments ss)
    {id : String} (hid : IsPlain id) {o : Outgoing}
    (ho : o.url = { a.core with path := .segments (stem ss ++ tail (.confirmLog id)) }) :
    OwnAddress a ss id o := by
  have htail {c : Call} {o' : Outgoing} (hc : c.service = .core) (ho' : ofCall a c = .ok o')
      (hsame : o'.url.path.render = o.url.path.render) :
      tail c = logTail ++ [encodeSegment true id] := by
    obtain ⟨o'', ho'', -, -, hp, -⟩ := ofCall_core hspecial hpath hc
    obtain rfl : o' = o'' := Except.ok.inj (ho'.symm.trans ho'')
    rw [hp, ho] at hsame
    rw [tail_eq_of_render hsame, tail_of_plain hid]
  refine ⟨⟨encodeSegment true id, ?_, Url.isOneSegment_encodeSegment hid, decode_of_plain hid⟩,
    fun id' o' hid' ho' hsame => ?_, fun c o' hc ho' hsame => ?_⟩
  · rw [ho, tail_of_plain hid]
  · have heq := htail rfl ho' hsame
    rw [tail_of_plain hid', List.append_cancel_left_eq, List.singleton_inj] at heq
    have hdecode := decode_of_plain hid'
    rw [heq, decode_of_plain hid] at hdecode
    exact (Url.utf8_injective hdecode).symm
  · have heq := htail hc ho' hsame
    rcases of_third_logging hc (by rw [heq]; rfl) with ⟨e, rfl⟩ | ⟨job, rfl⟩ | hconfirm
    · rw [tail_writeLog] at heq
      exact absurd (congrArg List.length heq) (by simp)
    · have hlength := length_tail_processedCount job
      rw [heq] at hlength
      exact absurd hlength (by simp [logTail, log])
    · exact hconfirm

/-- **A log entry is confirmed at the address of its id.** Below every base of the core service that
is an address with the scheme `http` or `https`, an id of plain text makes one segment after those
of the log, which denotes it and is the address of no other id and no other call. The log's segments
follow those of the base, without an empty one at its end; below one slash or two they come first.
The dots confirm at the address of the log itself. Other ids are taken without tabs and line ends;
if that leaves a dot or two, the last segment is empty. -/
theorem confirmed_at_own_address {a : Addresses} {base : String}
    (hbase : Url.parse base = .ok a.core)
    (hscheme : a.core.scheme = "http".toList ∨ a.core.scheme = "https".toList) :
    ∃ ss, a.core.path = .segments ss ∧
      (stem ss = if ss = [[], []] then []
        else if ss.getLast? = some [] then ss.dropLast else ss) ∧
      ∀ id : String, ∃ o, ofCall a (.confirmLog id) = .ok o ∧ o.service = .core ∧ o.method = "PUT" ∧
        (IsPlain id → OwnAddress a ss id o) ∧
        (id = "." ∨ id = ".." →
          o.url = { a.core with path := .segments (stem ss ++ logTail) }) ∧
        (id ≠ "." ∧ id ≠ ".." → stripped id ≠ "." ∧ stripped id ≠ ".." →
          OwnAddress a ss (stripped id) o) ∧
        (id ≠ "." → stripped id = "." →
          o.url = { a.core with path := .segments (stem ss ++ (logTail ++ [[]])) }) ∧
        (id ≠ ".." → stripped id = ".." →
          o.url = { a.core with path := .segments (stem ss ++ (logTail.dropLast ++ [[]])) }) := by
  have hspecial : isSpecial a.core.scheme = true := by
    rcases hscheme with h | h <;> rw [h] <;> decide
  obtain ⟨ss, hpath⟩ := Url.parse_segments hbase hspecial
  refine ⟨ss, hpath, Url.stem_eq ss, fun id => ?_⟩
  obtain ⟨o, ho, hservice, hmethod, -, hurl⟩ :=
    ofCall_core hspecial hpath (c := .confirmLog id) rfl
  replace hurl := hurl rfl
  refine ⟨o, ho, hservice, hmethod, fun hid => ownAddress_of_plain hspecial hpath hid hurl,
    fun hdot => ?_, fun hid hstripped => ?_, fun hid hstripped => ?_, fun hid hstripped => ?_⟩
  · rw [hurl, tail_confirmLog, Url.addSegment_dot logTail hdot]
  · refine ownAddress_of_plain hspecial hpath (Url.isPlain_stripped hstripped) ?_
    rw [hurl, tail_confirmLog, tail_confirmLog, Url.addSegment_stripped hid hstripped]
  · have hid' : id ≠ ".." := by
      rintro rfl
      exact absurd hstripped (by decide)
    rw [hurl, tail_confirmLog, Url.addSegment_of_stripped_dot ⟨hid, hid'⟩ hstripped,
      Url.trunk_of_length (by decide)]
  · have hid' : id ≠ "." := by
      rintro rfl
      exact absurd hstripped (by decide)
    rw [hurl, tail_confirmLog, Url.addSegment_of_stripped_dots ⟨hid', hid⟩ hstripped,
      Url.trunk_of_length (by decide)]

/-- A core service below a path with a slash at its end. -/
def coreBelow : Url where
  scheme := "https".toList
  authority := some "core.example:8443".toList
  path := .segments ["desk".toList, []]
  query := none
  fragment := none

def services : Addresses := ⟨coreBelow, coreBelow, coreBelow⟩

theorem crooked_id_confirmed :
    Url.parse "https://core.example:8443/desk/" = .ok services.core ∧
      services.core.scheme = "https".toList ∧ IsPlain "a/../b?c#d%2e e" ∧
      ∃ o, ofCall services (.confirmLog "a/../b?c#d%2e e") = .ok o ∧
        OwnAddress services ["desk".toList, []] "a/../b?c#d%2e e" o := by
  have hbase : Url.parse "https://core.example:8443/desk/" = .ok services.core := by
    decide +kernel
  have hid : IsPlain "a/../b?c#d%2e e" := by decide
  obtain ⟨ss, hpath, -, hall⟩ := confirmed_at_own_address hbase (.inr rfl)
  obtain ⟨o, ho, -, -, hown, -⟩ := hall "a/../b?c#d%2e e"
  obtain rfl := Url.Path.segments.inj hpath
  exact ⟨hbase, rfl, hid, o, ho, hown hid⟩

/-- Where the entry with an id is confirmed, as text. -/
def confirmedAt (id : String) : Option String :=
  (ofCall services (.confirmLog id)).toOption.map (·.url.render)

/-- Both dots stand for the log itself, and a tab is lost: so different ids share an address, and
that of the log has no segment for an id at all. -/
theorem dots_confirmed_at_log :
    Url.parse "https://core.example:8443/desk/" = .ok services.core ∧
      confirmedAt "." =
        some "https://core.example:8443/desk/api/core/logging/transaction/product-catalog" ∧
      confirmedAt ".." = confirmedAt "." ∧
      confirmedAt "PLS-1" =
        some "https://core.example:8443/desk/api/core/logging/transaction/product-catalog/PLS-1" ∧
      confirmedAt "PLS\t-1" = confirmedAt "PLS-1" := by
  decide +kernel

end Vetting.Outgoing
