import Vetting.Core.Account
import Vetting.Core.Job
import Vetting.Core.JobDetail
import Vetting.Core.LogEntry
import Vetting.Proofs.ReadBack

/-! # The normal form of what travels

A type that travels has a normal form if what is read is written in one way only: with each field
under its own name, whatever name it was read under, with no others, with every instant in UTC, and
so that it is read back. Main statement: every type the core service exchanges has one. -/

namespace Vetting

/-- The keys of an object. -/
def Json.keys : Json → List String
  | .obj ms => ms.map Prod.fst
  | _ => []

namespace Wire

/-- The view of a value that travels loses nothing. -/
class LawfulForm (α : Type) [Form α] : Prop where
  toVal_ofVal : ∀ x : (Form.shape α).Val, Form.toVal (Form.ofVal x : α) = x

/-- A value is written in its normal form, with these names at the top. -/
structure InNormalForm {α : Type} [Form α] (names : List String) (v : α) : Prop where
  /-- What is written is read as the value again. -/
  read_back : Form.decode α (Form.encode v) = .ok v
  /-- Written again, it is as before. -/
  encoded_alike : (Form.decode α (Form.encode v)).map Form.encode = .ok (Form.encode v)
  /-- The names are those of the fields. -/
  keys : (Form.encode v).keys.Perm names
  /-- Every field is written, and every instant in UTC. -/
  written : (Form.shape α).Written (Form.toVal v) (Form.encode v)

/-- Whatever is read as a value of the type, the value is written in its normal form. -/
def HasNormalForm (α : Type) [Form α] (names : List String) : Prop :=
  ∀ (j : Json) (v : α), Form.decode α j = .ok v → InNormalForm names v

theorem keys_toJson {name : String} {fs : Fields} (h : fs.isDistinct = true) (vs : fs.Vals) :
    ((Shape.record name fs).toJson vs).keys.Perm fs.keys := by
  obtain ⟨ns, hobject, -, hkeys⟩ := fs.object_members h vs
  have hwritten : (Shape.record name fs).toJson vs = .obj ns := hobject
  rw [hwritten]
  exact hkeys

theorem hasNormalForm_of {α : Type} [Form α] [LawfulForm α] {names : List String}
    (hdistinct : (Form.shape α).isDistinct = true)
    (hkeys : ∀ v : α, (Form.encode v).keys.Perm names) : HasNormalForm α names := by
  intro j v h
  obtain ⟨x, hx, rfl⟩ : ∃ x, (Form.shape α).ofJson j = .ok x ∧ v = Form.ofVal x := by
    unfold Form.decode at h
    cases hx : (Form.shape α).ofJson j with
    | error f =>
      rw [hx] at h
      cases h
    | ok x =>
      rw [hx] at h
      exact ⟨x, rfl, (Except.ok.inj h).symm⟩
  have hread := (Form.shape α).readable_of_ofJson hx
  have hval : Form.toVal (Form.ofVal x : α) = x := LawfulForm.toVal_ofVal x
  have hback : Form.decode α (Form.encode (Form.ofVal x : α)) = .ok (Form.ofVal x) := by
    rw [Form.decode, Form.encode, hval, (Form.shape α).ofJson_toJson hdistinct hread]
    rfl
  refine ⟨hback, ?_, hkeys _, ?_⟩
  · rw [hback]
    rfl
  · rw [Form.encode, hval]
    exact (Form.shape α).written_toJson hdistinct hread

instance : LawfulForm JobStatus := ⟨fun _ => rfl⟩

instance : LawfulForm ProductInfo := ⟨fun (_, _, _, ()) => rfl⟩

instance : LawfulForm Subscription := ⟨fun (_, _, (_, _, _, ()), ()) => rfl⟩

instance : LawfulForm Quota := ⟨fun (_, ()) => rfl⟩

instance : LawfulForm Grade := ⟨fun (_, _, _, _, ()) => rfl⟩

instance : LawfulForm JobRef := ⟨fun (_, _, _, ()) => rfl⟩

instance : LawfulForm ProcessedCount := ⟨fun (_, ()) => rfl⟩

instance : LawfulForm Job := ⟨fun (_, _, _, _, _, _, _, _, _, ()) => rfl⟩

instance : LawfulForm Meta := ⟨fun (_, _, _, _, ()) => rfl⟩

instance : LawfulForm DetailInput := ⟨fun (_, _, _, _, _, _, ()) => rfl⟩

instance : LawfulForm DetailData := ⟨fun (_, _, _, _, _, _, _, _, _, _, _, _, _, ()) => rfl⟩

theorem map_toVal_ofVal {α : Type} [Form α] [LawfulForm α] (x : Option (Form.shape α).Val) :
    (x.map (Form.ofVal : _ → α)).map Form.toVal = x := by
  cases x with
  | none => rfl
  | some x => exact congrArg some (LawfulForm.toVal_ofVal x)

instance : LawfulForm Snapshot where
  toVal_ofVal := fun (input, data, ()) =>
    congrArg (fun data => (input, data, ())) (map_toVal_ofVal (α := DetailData) data)

instance : LawfulForm JobDetail where
  toVal_ofVal := fun (jobId, transactionId, status, message, input, data, snapshot, createdAt,
      ()) =>
    congrArg₂ (fun data snapshot =>
        (jobId, transactionId, status, message, input, data, snapshot, createdAt, ()))
      (map_toVal_ofVal (α := DetailData) data) (map_toVal_ofVal (α := Snapshot) snapshot)

instance : LawfulForm LogEntry := ⟨fun (_, _, _, _, _, _, _, _, _, _, _, _, _, _, ()) => rfl⟩

/-- **Every type that travels has a normal form**: whatever it is read from, a value is written
with these names and no others, with its instants in UTC, and read back. -/
theorem travelling_types_have_normal_form :
    HasNormalForm Subscription ["subscribed_product_id", "product_id", "product"] ∧
    HasNormalForm ProductInfo ["product_group_id", "slug", "name"] ∧
    HasNormalForm Quota ["quota"] ∧
    HasNormalForm Grade ["id", "grade", "start", "end"] ∧
    HasNormalForm JobRef ["id", "member_id", "company_id"] ∧
    HasNormalForm ProcessedCount ["processed_count"] ∧
    HasNormalForm Job ["id", "product_id", "member_id", "company_id", "total", "success_count",
      "status", "start_at", "end_at"] ∧
    HasNormalForm JobDetail ["job_id", "transaction_id", "status", "message", "input", "data",
      "ref_trans_product_catalog", "created_at"] ∧
    HasNormalForm DetailInput ["name", "nik", "phone_number", "npwp", "npwp_or_nik", "loan_no"] ∧
    HasNormalForm DetailData ["name", "address", "remarks", "status", "query_count", "score",
      "npwp_verification", "tax_compliance", "live_status", "operator", "phone_type",
      "probability_to_default", "grade"] ∧
    HasNormalForm Snapshot ["input", "data"] ∧
    HasNormalForm LogEntry ["transaction_id", "job_id", "member_id", "company_id", "product_id",
      "product_group_id", "status", "success", "message", "input", "output", "data",
      "request_time", "response_time"] ∧
    HasNormalForm Meta ["page", "size", "total_pages", "total_data"] ∧
    HasNormalForm JobStatus [] := by
  have hstatus : HasNormalForm JobStatus [] := hasNormalForm_of rfl fun _ => .refl _
  refine ⟨?_, ?_, ?_, ?_, ?_, ?_, ?_, ?_, ?_, ?_, ?_, ?_, ?_, hstatus⟩
  all_goals
    exact hasNormalForm_of (by decide +kernel) fun v => keys_toJson (by decide +kernel) _

/-- A subscription with an older name for its id, and a member that has no field. -/
def sentSubscription : Json := .obj [("id", .num (.int 4)), ("product_id", .num (.int 2)),
  ("product", .obj [("slug", .str "phone"), ("tier", .bool true)])]

/-- A job that started in a leap second, by a clock that is seven hours ahead. -/
def sentJob : Json := .obj [("id", .num (.int 9)), ("status", .obj [("done", .null)]),
  ("start_at", .str "2017-01-01t06:59:60.5 +07:00")]

theorem sent_job_in_normal_form :
    (∃ s : Subscription, Form.decode Subscription sentSubscription = .ok s ∧
      Form.encode s = .obj [("product", .obj [("name", .str ""),
        ("product_group_id", .num (.int 0)), ("slug", .str "phone")]),
        ("product_id", .num (.int 2)), ("subscribed_product_id", .num (.int 4))] ∧
      InNormalForm ["subscribed_product_id", "product_id", "product"] s) ∧
    ∃ job : Job, Form.decode Job sentJob = .ok job ∧
      Form.encode job = .obj [("company_id", .num (.int 0)), ("end_at", .null),
        ("id", .num (.int 9)), ("member_id", .num (.int 0)), ("product_id", .num (.int 0)),
        ("start_at", .str "2016-12-31T23:59:60.500Z"), ("status", .str "done"),
        ("success_count", .num (.int 0)), ("total", .num (.int 0))] ∧
      InNormalForm ["id", "product_id", "member_id", "company_id", "total", "success_count",
        "status", "start_at", "end_at"] job := by
  obtain ⟨hsubscription, -, -, -, -, -, hjob, -⟩ := travelling_types_have_normal_form
  exact ⟨⟨_, rfl, rfl, hsubscription sentSubscription _ rfl⟩,
    ⟨_, rfl, rfl, hjob sentJob _ rfl⟩⟩

end Wire

end Vetting
