import FieldCrypt.Broker.Reply
import FieldCrypt.Proofs.Text.Separator

/-!
# The lines of a failure

A failure shows as four labelled lines, with its reason and its request id put in as they are. Line
breaks in these two make further lines, and then a text may stand for more than one failure: what
looks like the end of the reason can be a part of it, and what looks like another status a part of
the request id. There is no other way for two failures to share a text, and none at all for a
failure whose reason and request id are one line each.
-/

namespace FieldCrypt.Broker

/-- The lines of a text. -/
def lines (text : String) : List String := (text.toList.splitOn '\n').map String.ofList

theorem length_splitOn (chars : List Char) :
    (chars.splitOn '\n').length = chars.count '\n' + 1 := by
  induction chars with
  | nil => rfl
  | cons c chars ih =>
      rw [List.splitOn_cons_eq_if_modifyHead]
      by_cases breaks : c = '\n'
      · rw [if_pos (beq_iff_eq.mpr breaks), breaks, List.length_cons, ih, List.count_cons_self]
      · rw [if_neg (mt beq_iff_eq.mp breaks), List.length_modifyHead, ih,
          List.count_cons_of_ne breaks]

theorem length_lines (text : String) : (lines text).length = text.toList.count '\n' + 1 := by
  rw [lines, List.length_map, length_splitOn]

/-- A line ends with the first line break. -/
theorem splitOn_line {line : List Char} (single : '\n' ∉ line) (rest : List Char) :
    (line ++ '\n' :: rest).splitOn '\n' = line :: rest.splitOn '\n' :=
  List.splitOn_append_cons_self_of_not_mem single rest

/-- A number behind its label. -/
def labelled (label : String) (number : Nat) : List Char := label.toList ++ Nat.toDigits 10 number

theorem toList_labelled (label : String) (number : Nat) :
    (label ++ toString number).toList = labelled label number := by
  rw [String.toList_append, Nat.toString_eq_repr, Nat.toList_repr, labelled]

theorem labelled_injective {label : String} {number other : Nat}
    (same : labelled label number = labelled label other) : number = other := by
  have digits : Nat.toDigits 10 number = Nat.toDigits 10 other := List.append_cancel_left same
  have read := congrArg (Nat.ofDigitChars 10 · 0) digits
  simpa only [Nat.ofDigitChars_ten_toDigits] using read

/-- Numbers are written in one line. -/
theorem break_not_mem_labelled {label : String} (single : '\n' ∉ label.toList) (number : Nat) :
    '\n' ∉ labelled label number := by
  intro there
  rcases List.mem_append.mp there with inLabel | inDigits
  · exact single inLabel
  · have digit := Nat.isDigit_of_mem_toDigits (by decide) (by decide) inDigits
    revert digit
    decide

namespace Failure

/-- The line of a status. -/
def statusLine (status : UInt16) : List Char := labelled "KMS_RESPONSE_STATUS: " status.toNat

/-- The line of an error code. -/
def codeLine (errorCode : UInt32) : List Char := labelled "KMS_ErrorCode: " errorCode.toNat

/-- What a request id is put behind. -/
def idLabel : List Char := "KMS_REQUEST_ID: ".toList

/-- What stands between a reason and a request id. -/
def between (status : UInt16) : String :=
  "\nKMS_RESPONSE_STATUS: " ++ toString status.toNat ++ "\nKMS_REQUEST_ID: "

theorem break_not_mem_statusLine (status : UInt16) : '\n' ∉ statusLine status :=
  break_not_mem_labelled (by decide) _

theorem break_not_mem_codeLine (errorCode : UInt32) : '\n' ∉ codeLine errorCode :=
  break_not_mem_labelled (by decide) _

theorem break_not_mem_idLabel : '\n' ∉ idLabel := by decide

theorem toList_between (status : UInt16) :
    (between status).toList = '\n' :: (statusLine status ++ '\n' :: idLabel) := by
  have status : "\nKMS_RESPONSE_STATUS: ".toList = '\n' :: "KMS_RESPONSE_STATUS: ".toList := by
    decide
  have id : "\nKMS_REQUEST_ID: ".toList = '\n' :: idLabel := by decide
  unfold between statusLine labelled
  rw [String.toList_append, String.toList_append, Nat.toString_eq_repr, Nat.toList_repr, status, id,
    List.cons_append, List.cons_append]

variable {failure other : Failure}

theorem message_eq (failure : Failure) :
    failure.message = "KmsError: " ++ (failure.reason ++ between failure.status ++
      failure.requestId) ++ ("\nKMS_ErrorCode: " ++ toString failure.errorCode.toNat) := by
  unfold message between
  simp only [String.append_assoc]

/-- The part of a text that two failures may read in different ways. -/
def body (failure : Failure) : List Char :=
  failure.reason.toList ++
    '\n' :: (statusLine failure.status ++ '\n' :: (idLabel ++ failure.requestId.toList))

theorem toList_message (failure : Failure) :
    failure.message.toList =
      ("KmsError: ".toList ++ failure.body) ++ '\n' :: codeLine failure.errorCode := by
  have code : "\nKMS_ErrorCode: ".toList = '\n' :: "KMS_ErrorCode: ".toList := by decide
  rw [message_eq]
  unfold body codeLine labelled
  rw [String.toList_append, String.toList_append, String.toList_append, String.toList_append,
    String.toList_append, toList_between, Nat.toString_eq_repr, Nat.toList_repr, code]
  simp only [List.append_assoc, List.cons_append]

theorem body_eq (failure : Failure) :
    failure.body = (failure.reason ++ between failure.status ++ failure.requestId).toList := by
  rw [String.toList_append, String.toList_append, toList_between]
  simp only [body, List.append_assoc, List.cons_append]

/-- The error code is always the last line, so a text is a body and a code in one way. -/
theorem message_eq_iff_body :
    failure.message = other.message ↔
      failure.body = other.body ∧ failure.errorCode = other.errorCode := by
  constructor
  · intro same
    have whole := congrArg String.toList same
    rw [toList_message, toList_message] at whole
    have front := append_cancel_of_last whole (break_not_mem_codeLine _) (break_not_mem_codeLine _)
    rw [front] at whole
    obtain ⟨-, codes⟩ := List.cons.inj (List.append_cancel_left whole)
    exact ⟨List.append_cancel_left front, UInt32.toNat_inj.mp (labelled_injective codes)⟩
  · rintro ⟨body, code⟩
    apply String.toList_injective
    rw [toList_message, toList_message, body, code]

/-- The failures differ at most in where a key has moved to. -/
structure Agrees (failure other : Failure) : Prop where
  reason : failure.reason = other.reason
  status : failure.status = other.status
  requestId : failure.requestId = other.requestId
  errorCode : failure.errorCode = other.errorCode

/-- The reason of the other failure goes on with the status of this one and the first part of its
request id, and what is left of this request id is the status and the request id of the other. -/
structure Shifted (failure other : Failure) (middle : String) : Prop where
  reason : other.reason = failure.reason ++ between failure.status ++ middle
  requestId : failure.requestId = middle ++ between other.status ++ other.requestId
  errorCode : failure.errorCode = other.errorCode

/-- The reason and the request id are one line each. -/
structure OneLined (failure : Failure) : Prop where
  reason : '\n' ∉ failure.reason.toList
  requestId : '\n' ∉ failure.requestId.toList

theorem Agrees.message_eq (agrees : failure.Agrees other) : failure.message = other.message := by
  obtain ⟨reason, status, requestId, errorCode⟩ := agrees
  rw [message_eq_iff_body, body, body, reason, status, requestId]
  exact ⟨rfl, errorCode⟩

theorem Shifted.message_eq {middle : String} (shifted : failure.Shifted other middle) :
    failure.message = other.message := by
  obtain ⟨reason, requestId, errorCode⟩ := shifted
  rw [message_eq_iff_body, body_eq, body_eq, reason, requestId]
  simp only [String.append_assoc, errorCode, and_self]

/-- No request id begins where a status was given. -/
theorem idLabel_ne (id rest : List Char) (status : UInt16) :
    idLabel ++ id ≠ statusLine status ++ rest := by
  intro same
  have seventh := congrArg (·[6]?) same
  cases (seventh : some 'Q' = some 'S')

/-- Of two failures with one body, one has a reason that is at least as long. Then they agree, or
what makes it longer is the status of the other one and the first part of its request id. -/
theorem agrees_or_shifted {longer : List Char}
    (reason : other.reason.toList = failure.reason.toList ++ longer)
    (rest : '\n' :: (statusLine failure.status ++ '\n' :: (idLabel ++ failure.requestId.toList)) =
      longer ++ '\n' :: (statusLine other.status ++ '\n' :: (idLabel ++ other.requestId.toList)))
    (code : failure.errorCode = other.errorCode) :
    failure.Agrees other ∨ ∃ middle, failure.Shifted other middle := by
  cases longer with
  | nil =>
      left
      obtain ⟨-, lines⟩ := List.cons.inj rest
      have status := append_cancel_of_first lines (break_not_mem_statusLine _)
        (break_not_mem_statusLine _)
      rw [status] at lines
      obtain ⟨-, ids⟩ := List.cons.inj (List.append_cancel_left lines)
      refine ⟨?_, UInt16.toNat_inj.mp (labelled_injective status), ?_, code⟩
      · exact String.toList_injective (by rw [reason, List.append_nil])
      · exact String.toList_injective (List.append_cancel_left ids)
  | cons first longer =>
      right
      obtain ⟨rfl, lines⟩ := List.cons.inj rest
      -- What is longer goes on to the end of the line of the status, and then to that of the label.
      obtain ⟨behind, rfl, ids⟩ :=
        exists_of_append_eq_append_cons lines (break_not_mem_statusLine failure.status)
      cases behind with
      | nil => exact (idLabel_ne _ _ _ (List.cons.inj ids).2).elim
      | cons second behind =>
          obtain ⟨rfl, labels⟩ := List.cons.inj ids
          obtain ⟨middle, rfl, requestId⟩ :=
            exists_of_append_eq_append_cons labels break_not_mem_idLabel
          refine ⟨String.ofList middle, ?_, ?_, code⟩
          · apply String.toList_injective
            rw [reason, String.toList_append, String.toList_append, toList_between,
              String.toList_ofList]
            simp only [List.append_assoc, List.cons_append]
          · apply String.toList_injective
            rw [requestId, String.toList_append, String.toList_append, toList_between,
              String.toList_ofList]
            simp only [List.append_assoc, List.cons_append]

/-- Two failures have the same text exactly if they agree or one of them is the other one
shifted. -/
theorem message_eq_iff_shifted :
    failure.message = other.message ↔ failure.Agrees other ∨
      (∃ middle, failure.Shifted other middle) ∨ ∃ middle, other.Shifted failure middle := by
  constructor
  · intro same
    obtain ⟨same, code⟩ := message_eq_iff_body.mp same
    rcases List.append_eq_append_iff.mp same with ⟨longer, reason, rest⟩ | ⟨longer, reason, rest⟩
    · rcases agrees_or_shifted reason rest code with agrees | shifted
      · exact .inl agrees
      · exact .inr (.inl shifted)
    · rcases agrees_or_shifted reason rest code.symm with agrees | shifted
      · exact .inl ⟨agrees.1.symm, agrees.2.symm, agrees.3.symm, agrees.4.symm⟩
      · exact .inr (.inr shifted)
  · rintro (agrees | ⟨middle, shifted⟩ | ⟨middle, shifted⟩)
    · exact agrees.message_eq
    · exact shifted.message_eq
    · exact shifted.message_eq.symm

/-- A failure with a reason and a request id of one line each shares its text with no other. -/
theorem OneLined.agrees (oneLined : failure.OneLined) (same : failure.message = other.message) :
    failure.Agrees other := by
  have breaks (front back : String) (status : UInt16) :
      '\n' ∈ (front ++ between status ++ back).toList := by
    rw [String.toList_append, String.toList_append, toList_between]
    exact List.mem_append_left _ (List.mem_append_right _ List.mem_cons_self)
  rcases message_eq_iff_shifted.mp same with agrees | ⟨middle, shifted⟩ | ⟨middle, shifted⟩
  · exact agrees
  · refine (oneLined.requestId ?_).elim
    rw [shifted.requestId]
    exact breaks _ _ _
  · refine (oneLined.reason ?_).elim
    rw [shifted.reason]
    exact breaks _ _ _

/-- Three line breaks divide the four parts of a text. -/
theorem length_lines_message (failure : Failure) :
    (lines failure.message).length =
      4 + failure.reason.toList.count '\n' + failure.requestId.toList.count '\n' := by
  have label : "KmsError: ".toList.count '\n' = 0 := by decide
  have status := List.count_eq_zero.mpr (break_not_mem_statusLine failure.status)
  have id := List.count_eq_zero.mpr break_not_mem_idLabel
  have code := List.count_eq_zero.mpr (break_not_mem_codeLine failure.errorCode)
  rw [length_lines, toList_message]
  simp only [body, List.count_append, List.count_cons_self, label, status, id, code]
  omega

theorem OneLined.lines_message (oneLined : failure.OneLined) :
    lines failure.message = [
      "KmsError: " ++ failure.reason,
      "KMS_RESPONSE_STATUS: " ++ toString failure.status.toNat,
      "KMS_REQUEST_ID: " ++ failure.requestId,
      "KMS_ErrorCode: " ++ toString failure.errorCode.toNat] := by
  have reason : '\n' ∉ ("KmsError: " ++ failure.reason).toList := by
    rw [String.toList_append, List.mem_append, not_or]
    exact ⟨by decide, oneLined.reason⟩
  have requestId : '\n' ∉ ("KMS_REQUEST_ID: " ++ failure.requestId).toList := by
    rw [String.toList_append, List.mem_append, not_or]
    exact ⟨by decide, oneLined.requestId⟩
  have parts : failure.message.toList = ("KmsError: " ++ failure.reason).toList ++ '\n' ::
      (statusLine failure.status ++ '\n' :: (("KMS_REQUEST_ID: " ++ failure.requestId).toList ++
        '\n' :: codeLine failure.errorCode)) := by
    rw [toList_message, String.toList_append, String.toList_append]
    unfold body idLabel
    simp only [List.append_assoc, List.cons_append]
  rw [lines, parts, splitOn_line reason, splitOn_line (break_not_mem_statusLine _),
    splitOn_line requestId, List.splitOn_eq_singleton (break_not_mem_codeLine _), statusLine,
    codeLine, ← toList_labelled, ← toList_labelled]
  simp only [List.map_cons, List.map_nil, String.ofList_toList]

/-- The text of a failure has four lines, and one more for each line break in its reason or its
request id. Without any, these are the four parts of the failure behind their labels, and no failure
has this text unless it agrees in all four. Any two failures have the same text exactly if they
agree or one is the other shifted, so that the error code is the same even then. -/
theorem message_lines (reply other : Reply) :
    let failure := ofReply reply
    let second := ofReply other
    (lines failure.message).length =
        4 + failure.reason.toList.count '\n' + failure.requestId.toList.count '\n' ∧
      (failure.OneLined →
        lines failure.message = [
          "KmsError: " ++ reply.reason.getD "",
          "KMS_RESPONSE_STATUS: " ++ toString reply.status.toNat,
          "KMS_REQUEST_ID: " ++ reply.requestId.getD "",
          "KMS_ErrorCode: " ++ toString (reply.errorCode.getD 0).toNat] ∧
        (failure.message = second.message → failure.Agrees second)) ∧
      (failure.message = second.message ↔ failure.Agrees second ∨
        (∃ middle, failure.Shifted second middle) ∨ ∃ middle, second.Shifted failure middle) := by
  intro failure second
  refine ⟨length_lines_message failure, fun oneLined => ⟨?_, ?_⟩, message_eq_iff_shifted⟩
  · exact oneLined.lines_message
  · exact oneLined.agrees

/-- A reply with little in it, and one that says the same. -/
theorem message_lines_found :
    let reply : Reply := { status := 404, reason := some "key not found" }
    let other : Reply := { reply with errorCode := some 0, redirectUri := some "kms://h/keys/a" }
    let failure := Failure.ofReply reply
    failure.OneLined ∧
      lines failure.message = ["KmsError: key not found", "KMS_RESPONSE_STATUS: 404",
        "KMS_REQUEST_ID: ", "KMS_ErrorCode: 0"] ∧
      failure.message = (Failure.ofReply other).message ∧
      failure.Agrees (Failure.ofReply other) := by
  intro reply other failure
  obtain ⟨-, found, -⟩ := message_lines reply other
  have oneLined : failure.OneLined := ⟨by decide, by decide⟩
  obtain ⟨lines, agrees⟩ := found oneLined
  have same : failure.message = (Failure.ofReply other).message := rfl
  exact ⟨oneLined, lines.trans (by decide), same, agrees same⟩

/-- A reason with two line breaks, and a failure with another reason, another status and another
request id that shows as the same six lines. -/
theorem message_shared :
    let reply : Reply := { status := 200, requestId := some "s"
                           reason := some "down\nKMS_RESPONSE_STATUS: 503\nKMS_REQUEST_ID: r" }
    let other : Reply := { status := 503, reason := some "down"
                           requestId := some "r\nKMS_RESPONSE_STATUS: 200\nKMS_REQUEST_ID: s" }
    (lines (ofReply reply).message).length = 6 ∧
      (ofReply reply).message = (ofReply other).message ∧
      ¬ (ofReply reply).Agrees (ofReply other) := by
  refine ⟨by decide +kernel, by decide +kernel, ?_⟩
  rintro ⟨reason, -, -, -⟩
  revert reason
  decide

end Failure

end FieldCrypt.Broker
