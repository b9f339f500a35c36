import HttpServerDemo.Gateway.UserController
import HttpServerDemo.GrpcServer.Runs
import HttpServerDemo.Library.Sequential

/-!
# What a bad request is

The gateway asks whether a name or an id is there, and the service whether it is empty. So an
empty id, an empty name and a name that is null, which `asString` makes empty, pass the gateway,
are rejected by the service, and come back as a 502 (`empty_name_bad_gateway`).
`bad_requests_agree_iff` says that gateway and service agree on every other input.
-/

namespace HttpServerDemo

open Interleaving JsonCpp

/-- What the two handlers read: the body of a POST, if it is JSON, and the routing parameters of a
GET. -/
inductive Input (Number : Type) where
  | post (body : Option (Value Number))
  | get (params : List Text)

namespace Input

variable {Number : Type}

/-- The handler of an input. -/
def handler (numbers : NumberText Number) (json : JsonLibrary) (instanceId err lastError : String) :
    Input Number → Handler
  | .post body => UserController.createUserProgram numbers json instanceId body err lastError
  | .get params => UserController.getUserProgram json instanceId params err lastError

/-- The request of an input for the service, which sees a missing field as an empty one. `none`
where a field has no text. -/
def request (numbers : NumberText Number) : Input Number → Option Request
  | .post body => do
      let name ← ((body.bind fun v => v.find (.ascii "name")).getD .null).asString numbers
      let email ← ((body.bind fun v => v.find (.ascii "email")).getD .null).asString numbers
      return .createUser name email
  | .get params => some (.getUser (params.headD .empty))

/-- The name or the id is there, and empty. -/
def EmptyField : Input Number → Prop
  | .post body => ∃ v name, body = some v ∧ v.find (.ascii "name") = some name ∧
      name.isBlank = true ∧ (v.subscript (.ascii "email")).isScalar = true
  | .get params => ∃ id rest, params = id :: rest ∧ id.bytes = []

end Input

/-- The handler of this request never answers INVALID_ARGUMENT, whatever the stores do. -/
def Accepts (lib : Libraries) (req : Request) : Prop :=
  (UserServiceImpl.handle lib.json req).Returns fun resp =>
    ∀ message, resp ≠ .error .invalidArgument message

/-- Before instant `i`, the INSERT of call `t` has failed. -/
def InsertFailed (c : Server) (t i : Nat) : Prop :=
  ∃ (n conn : Nat) (name email : Text) (now : Int64) (ch : Choice) (w : World), n < i ∧
    c.log[n]? = some ⟨.op t (.execute conn name email now) ch false, w⟩

/-- A handler of the gateway and a server that runs as `c` agree on what a bad request is. -/
structure Agree (lib : Libraries) (c : Server) (p : Handler) (asked : Option Request) : Prop where
  /-- What is forwarded passes the validation of the service. -/
  forwarded : ∀ h req k, After p h (.op req k) → Accepts lib req
  /-- A verdict of INVALID_ARGUMENT does not become a 502. -/
  verdict : ∀ req t i message resp, Called c t req →
    replyAt c i = some (t, .error .invalidArgument message) →
    After p [⟨req, .handled (.error .invalidArgument message)⟩] (.pure (some resp)) →
    resp.code ≠ .k502BadGateway
  /-- A 502 means that a call was not carried out, or that the service could not store the user. -/
  badGateway : ∀ h resp, After p h (.pure (some resp)) → resp.code = .k502BadGateway →
    ∃ req outcome, h = [⟨req, outcome⟩] ∧ ∀ answer, outcome = .handled answer →
      ∀ t i, Called c t req → replyAt c i = some (t, answer) → InsertFailed c t i
  /-- What the service would reject is answered with 400 and without a call. -/
  rejected : ∀ req, asked = some req → ¬ Accepts lib req →
    ∃ resp, p = .pure (some resp) ∧ resp.code = .k400BadRequest

variable {lib : Libraries} {poolSize : Nat} {ok : Server → ServerEvent → Prop} {c : Server}
  {i t : Nat}

/-! ## The validation of the service -/

theorem accepts_create_user_iff {name email : Text} :
    Accepts lib (.createUser name email) ↔ name.bytes ≠ [] := by
  rw [Accepts, UserServiceImpl.handle, create_user_handler_eq]
  constructor
  · intro h hname
    have hfirst := h none
    simp only [hname, List.isEmpty_nil, if_true] at hfirst
    exact hfirst _ rfl
  · intro hname r
    rw [if_neg (by simpa using hname)]
    refine Program.Returns.bind (fun reply => ?_) _
    show ∀ message, createReply reply ≠ .error .invalidArgument message
    obtain ⟨created, user⟩ := reply
    intro message heq
    cases created <;> cases heq

theorem accepts_get_user_iff {id : Text} : Accepts lib (.getUser id) ↔ id.bytes ≠ [] := by
  rw [Accepts, UserServiceImpl.handle, get_user_handler_eq]
  constructor
  · intro h hid
    have hfirst := h none
    simp only [hid, List.isEmpty_nil, if_true] at hfirst
    exact hfirst _ rfl
  · intro hid r
    rw [if_neg (by simpa using hid)]
    refine Program.Returns.bind (fun user => ?_) _
    show ∀ message, getReply user ≠ .error .invalidArgument message
    intro message heq
    cases user <;> cases heq

/-- A request that is accepted is not answered with INVALID_ARGUMENT in any run. -/
theorem Accepts.not_invalid {req : Request} {message : String} (h : Accepts lib req)
    (hrun : ServerRun lib poolSize ok c) (hcall : Called c t req) :
    replyAt c i ≠ some (t, .error .invalidArgument message) :=
  fun hret => h.after (ret_after_at hrun hret hcall) message rfl

/-- A `CreateUser` that is accepted is answered with an error only where its INSERT has failed. -/
theorem insert_failed_of_error (hrun : ServerRun lib poolSize ok c) {name email : Text}
    {code : StatusCode} {message : String} (h : Accepts lib (.createUser name email))
    (hcall : Called c t (.createUser name email))
    (hret : replyAt c i = some (t, .error code message)) : InsertFailed c t i := by
  obtain ⟨-, conn, now, hmem⟩ :=
    (ret_point_at hrun hret hcall).refused (accepts_create_user_iff.mp h)
  obtain ⟨h1, h2, hown⟩ := List.append_of_mem hmem
  obtain ⟨n, ch, w, hn, hlog, -⟩ := own_at hown
  exact ⟨n, conn, name, email, now, ch, w, hn, hlog⟩

/-- A `GetUser` that is accepted is answered with no error but NOT_FOUND. -/
theorem not_found_of_error (hrun : ServerRun lib poolSize ok c) {id : Text} {code : StatusCode}
    {message : String} (h : Accepts lib (.getUser id)) (hcall : Called c t (.getUser id))
    (hret : replyAt c i = some (t, .error code message)) : code = .notFound := by
  rcases (ret_point_at hrun hret hcall).got with ⟨r, hid, -⟩ | ⟨r, g, u, -, -, hresp⟩ |
    ⟨r, g, conn, res, -, -, hresp⟩ | ⟨r, g, conn, row, rest, s, -, hresp⟩
  · exact absurd hid (accepts_get_user_iff.mp h)
  · cases hresp
  · cases hresp
    rfl
  · cases hresp

/-! ## When they agree -/

variable {p : Handler} {asked : Option Request}

/-- A 400 without a call. -/
theorem agree_of_bad_request {resp : HttpResponse} (hp : p = .pure (some resp))
    (hcode : resp.code = .k400BadRequest) : Agree lib c p asked := by
  subst hp
  refine ⟨?_, ?_, ?_, fun _ _ _ => ⟨resp, rfl, hcode⟩⟩
  · intro h req k hafter
    cases (after_pure.mp hafter).2
  · intro req t i message resp' hcall hret hafter
    cases (after_pure.mp hafter).1
  · intro h resp' hafter hbad
    obtain ⟨-, heq⟩ := after_pure.mp hafter
    cases heq
    rw [hcode] at hbad
    cases hbad

/-- An exception, where no request can be read from the input. -/
theorem agree_of_exception (hp : p = .pure none) (hasked : asked = none) :
    Agree lib c p asked := by
  subst hp hasked
  refine ⟨?_, ?_, ?_, nofun⟩
  · intro h req k hafter
    cases (after_pure.mp hafter).2
  · intro req t i message resp hcall hret hafter
    cases (after_pure.mp hafter).1
  · intro h resp hafter hbad
    cases (after_pure.mp hafter).2

/-- One call, whose request is accepted. -/
theorem agree_of_forwarded (hrun : ServerRun lib poolSize ok c) {req : Request}
    {k : Outcome → HttpResponse} (hp : p = .op req fun outcome => .pure (some (k outcome)))
    (hasked : asked = some req) (haccepts : Accepts lib req)
    (hk : ∀ answer t i, (k (.handled answer)).code = .k502BadGateway → Called c t req →
      replyAt c i = some (t, answer) → InsertFailed c t i) : Agree lib c p asked := by
  subst hp hasked
  refine ⟨?_, ?_, ?_, ?_⟩
  · intro h req' k' hafter
    rcases after_op_pure.mp hafter with ⟨-, hq⟩ | ⟨outcome, -, hq⟩
    · cases hq
      exact haccepts
    · cases hq
  · intro req' t i message resp hcall hret hafter
    rcases after_op_pure.mp hafter with ⟨hh, -⟩ | ⟨outcome, hh, -⟩
    · cases hh
    · cases hh
      exact absurd hret (haccepts.not_invalid hrun hcall)
  · intro h resp hafter hbad
    rcases after_op_pure.mp hafter with ⟨-, hq⟩ | ⟨outcome, rfl, hq⟩
    · cases hq
    · cases hq
      refine ⟨req, outcome, rfl, ?_⟩
      rintro answer rfl t i hcall hret
      exact hk answer t i hbad hcall hret
  · intro req' hreq hrejected
    cases hreq
    exact absurd haccepts hrejected

/-! ## What the gateway forwards -/

section
variable {Number : Type} {numbers : NumberText Number} {json : JsonLibrary}
  {instanceId err lastError : String} {v member : Value Number}

/-- Without a name there is no call. -/
theorem create_user_program_nameless (h : v.find (.ascii "name") = none) :
    UserController.createUserProgram numbers json instanceId (some v) err lastError =
      .pure (some ⟨.k400BadRequest, instanceId, .error "name is required"⟩) := by
  have hmember : v.isMember (.ascii "name") = false := by simp [Value.isMember, h]
  simp only [UserController.createUserProgram, hmember, Bool.not_false, Bool.or_true, if_true]
  rfl

/-- With a name, `createUser` reads both texts. -/
theorem create_user_program_named (h : v.find (.ascii "name") = some member) :
    UserController.createUserProgram numbers json instanceId (some v) err lastError =
      match member.asString numbers, (v.subscript (.ascii "email")).asString numbers with
      | some name, some email =>
          .op (.createUser name email) fun outcome =>
            let (st, user, _) := GrpcClient.createUser outcome UserServiceImpl.emptyUser err
            .pure (some (if st ≠ .kOk then
              ⟨.k502BadGateway, instanceId, .error ("grpc CreateUser failed: " ++ lastError)⟩
            else ⟨.k201Created, instanceId, .text (userToJsonString json user)⟩))
      | _, _ => .pure none := by
  have hmember : v.isMember (.ascii "name") = true := by simp [Value.isMember, h]
  have hsubscript : v.subscript (.ascii "name") = member := by simp [Value.subscript, h]
  simp only [UserController.createUserProgram, Value.isObject_of_find h, hmember, hsubscript,
    Bool.not_true, Bool.or_false, Bool.false_eq_true, if_false]
  cases member.asString numbers with
  | none => rfl
  | some name =>
      cases (v.subscript (.ascii "email")).asString numbers with
      | none => rfl
      | some email =>
          simp only [Program.call_bind]
          refine congrArg (Program.op _) (funext fun outcome => ?_)
          split_ifs <;> rfl

/-- A name that is empty, with an email that has a text. -/
theorem empty_field_iff (h : v.find (.ascii "name") = some member) :
    (Input.post (some v)).EmptyField ↔
      member.isBlank = true ∧ (v.subscript (.ascii "email")).isScalar = true := by
  constructor
  · rintro ⟨v', name, hbody, hname, hblank, hscalar⟩
    cases hbody
    cases h.symm.trans hname
    exact ⟨hblank, hscalar⟩
  · rintro ⟨hblank, hscalar⟩
    exact ⟨v, member, rfl, h, hblank, hscalar⟩

end

/-! ## The gateway and the service -/

/-- Where a POST has no empty name, gateway and service agree on it. -/
theorem agree_of_post (hrun : ServerRun lib poolSize ok c) {Number : Type}
    {numbers : NumberText Number} {json : JsonLibrary} {instanceId err lastError : String}
    {body : Option (Value Number)} (h : ¬ (Input.post body).EmptyField) :
    Agree lib c ((Input.post body).handler numbers json instanceId err lastError)
      ((Input.post body).request numbers) := by
  cases body with
  | none => exact agree_of_bad_request rfl rfl
  | some v =>
      rw [Input.handler]
      cases hfind : v.find (.ascii "name") with
      | none => exact agree_of_bad_request (create_user_program_nameless hfind) rfl
      | some member =>
          rw [empty_field_iff hfind] at h
          have hrequest : (Input.post (some v)).request numbers = (do
              let name ← member.asString numbers
              let email ← (v.subscript (.ascii "email")).asString numbers
              return Request.createUser name email) := by
            simp only [Input.request, Option.bind_some, hfind, Option.getD_some, Value.subscript]
          rw [create_user_program_named hfind, hrequest]
          cases hname : member.asString numbers with
          | none => exact agree_of_exception rfl rfl
          | some name =>
              cases hemail : (v.subscript (.ascii "email")).asString numbers with
              | none => exact agree_of_exception rfl rfl
              | some email =>
                  have hscalar : (v.subscript (.ascii "email")).isScalar = true := by
                    rw [← Value.as_string_isSome numbers, hemail]
                    rfl
                  have haccepts : Accepts lib (.createUser name email) :=
                    accepts_create_user_iff.mpr fun hempty =>
                      h ⟨(Value.as_string_empty_iff hname).mp hempty, hscalar⟩
                  refine agree_of_forwarded hrun rfl rfl haccepts ?_
                  intro answer t i hbad hcall hret
                  cases answer with
                  | error code message => exact insert_failed_of_error hrun haccepts hcall hret
                  | user | page | stats => cases hbad

/-- Where a GET has no empty id, gateway and service agree on it. -/
theorem agree_of_get (hrun : ServerRun lib poolSize ok c) {Number : Type}
    {numbers : NumberText Number} {json : JsonLibrary} {instanceId err lastError : String}
    {params : List Text} (h : ¬ (Input.get params : Input Number).EmptyField) :
    Agree lib c ((Input.get params).handler numbers json instanceId err lastError)
      ((Input.get params).request numbers) := by
  cases params with
  | nil => exact agree_of_bad_request rfl rfl
  | cons id params =>
      have haccepts : Accepts lib (.getUser id) :=
        accepts_get_user_iff.mpr fun hempty => h ⟨id, params, rfl, hempty⟩
      rw [Input.handler, get_user_program_cons]
      refine agree_of_forwarded hrun rfl rfl haccepts ?_
      intro answer t i hbad hcall hret
      cases answer with
      | error code message =>
          cases not_found_of_error hrun haccepts hcall hret
          cases hbad
      | user | page | stats => cases hbad

/-- An input with an empty field is forwarded, and the service does not accept it. -/
theorem forwarded_of_empty_field {Number : Type} {numbers : NumberText Number} {json : JsonLibrary}
    {instanceId err lastError : String} {input : Input Number} (h : input.EmptyField) :
    ∃ req k, input.handler numbers json instanceId err lastError = .op req k ∧
      ¬ Accepts lib req := by
  cases input with
  | post body =>
      obtain ⟨v, member, rfl, hfind, hblank, hscalar⟩ := h
      rw [Input.handler, create_user_program_named hfind]
      have hmember : member.isScalar = true := by
        cases member with
        | null | string => rfl
        | number | boolean | array | object => cases hblank
      rw [← Value.as_string_isSome numbers, Option.isSome_iff_exists] at hmember hscalar
      obtain ⟨name, hname⟩ := hmember
      obtain ⟨email, hemail⟩ := hscalar
      rw [hname, hemail]
      refine ⟨.createUser name email, _, rfl, fun haccepts => ?_⟩
      exact accepts_create_user_iff.mp haccepts ((Value.as_string_empty_iff hname).mpr hblank)
  | get params =>
      obtain ⟨id, rest, rfl, hid⟩ := h
      rw [Input.handler, get_user_program_cons]
      exact ⟨.getUser id, _, rfl, fun haccepts => accepts_get_user_iff.mp haccepts hid⟩

/-- Whatever happens to the stores and on the way, gateway and service agree on an input if and
only if its name or id, where there is one, is not empty. -/
theorem bad_requests_agree_iff (hrun : ServerRun lib poolSize ok c) {Number : Type}
    (numbers : NumberText Number) (json : JsonLibrary) (instanceId err lastError : String)
    (input : Input Number) :
    Agree lib c (input.handler numbers json instanceId err lastError) (input.request numbers) ↔
      ¬ input.EmptyField := by
  constructor
  · intro h hempty
    obtain ⟨req, k, hhandler, hrejected⟩ := forwarded_of_empty_field hempty
    exact hrejected (h.forwarded [] req k (hhandler ▸ .refl _))
  · intro h
    cases input with
    | post body => exact agree_of_post hrun h
    | get params => exact agree_of_get hrun h

/-- A POST of this name and nothing else. -/
def postName (name : Value Int) : Input Int :=
  .post (some (.object [(.ascii "name", name)]))

/-- With a name that is not empty. -/
theorem bad_requests_agree_iff_named :
    ∃ c, ServerRun .standard 1 (fun _ _ => True) c ∧
      (callAt c 0 = some (0, .createUser (.ascii "Ann") .empty) ∧
        replyAt c 11 = some (0, .user ⟨.ascii "1", .ascii "Ann", .empty, 7⟩)) ∧
      Agree .standard c
        ((postName (.string (.ascii "Ann"))).handler .decimal JsonText.rfc8259 "gateway-1" "" "")
        ((postName (.string (.ascii "Ann"))).request .decimal) := by
  refine exists_run_with (fun _ _ => true)
    (whole 0 (.createUser (.ascii "Ann") .empty) (creates 7 0)) (fun _ _ _ => trivial)
    (by decide +kernel) ?_
  rintro c hrun -
  refine (bad_requests_agree_iff hrun .decimal JsonText.rfc8259 "gateway-1" "" "" _).mpr ?_
  rintro ⟨v, name, hbody, hname, hblank, -⟩
  cases hbody
  cases hname
  cases hblank

/-- The service rejects an empty name, and the gateway answers 502. -/
theorem empty_name_bad_gateway :
    ∃ c, ServerRun .standard 1 (fun _ _ => True) c ∧
      callAt c 0 = some (0, .createUser .empty .empty) ∧
      replyAt c 2 = some (0, .error .invalidArgument "name is required") ∧
      After ((postName (.string .empty)).handler .decimal JsonText.rfc8259 "gateway-1" ""
          "name is required")
        [⟨.createUser .empty .empty, .handled (.error .invalidArgument "name is required")⟩]
        (.pure (some ⟨.k502BadGateway, "gateway-1",
          .error "grpc CreateUser failed: name is required"⟩)) := by
  have hplay : ∃ c, ServerRun .standard 1 (fun _ _ => True) c ∧
      callAt c 0 = some (0, .createUser .empty .empty) ∧
      replyAt c 2 = some (0, .error .invalidArgument "name is required") :=
    exists_run (fun _ _ => true) (whole 0 (.createUser .empty .empty) [.ok]) (fun _ _ _ => trivial)
      (by decide +kernel)
  obtain ⟨c, hrun, hcall, hret⟩ := hplay
  exact ⟨c, hrun, hcall, hret, .step (.refl _)⟩

end HttpServerDemo
