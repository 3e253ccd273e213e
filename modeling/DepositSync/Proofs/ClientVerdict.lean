import DepositSync.Proofs.Account
import DepositSync.Proofs.JsonReading
import DepositSync.Proofs.Trimming
import DepositSync.Proofs.Utf8Text
import DepositSync.Proofs.VendorExchange

/-!
# DepositSync.Proofs.ClientVerdict

What a rejection says about a client. It says that the vendor does not know the client only if its
code names this very client (pending journeys), or is the one code for that (portfolios); nothing
else in it counts. The row tells the code, or the message if there is none.

A rejection is an answer whose body is an object in JSON, however it is written. The one exception
are bodies beyond the limits of the reader, which are no verdict on anybody
(`not_found_hits_its_client`).
-/

namespace DepositSync

open Http (Response)
open Json (Value)

/-! ### Codes -/

namespace VendorError

theorem toList_pendingJourneyNotFound (client : String) :
    (pendingJourneyNotFound client).toList =
      "[PCI:".toList ++ (client.toList ++ "] not found".toList) := by
  show ("[PCI:" ++ client ++ "] not found").toList = _
  rw [String.toList_append, String.toList_append, List.append_assoc]

/-- The code of a client is that of no other. -/
theorem pendingJourneyNotFound_inj {c c' : String} :
    pendingJourneyNotFound c = pendingJourneyNotFound c' ↔ c = c' := by
  refine ⟨fun h => ?_, congrArg _⟩
  have hlist := congrArg String.toList h
  simp only [toList_pendingJourneyNotFound] at hlist
  exact String.toList_inj.mp (List.append_cancel_right (List.append_cancel_left hlist))

/-- Blanks around a code do not count. -/
theorem trim_pendingJourneyNotFound (client : String) {front back : List Char}
    (hfront : ∀ c ∈ front, Text.isBlank c = true) (hback : ∀ c ∈ back, Text.isBlank c = true) :
    Text.trim (String.ofList (front ++ (pendingJourneyNotFound client).toList ++ back)) =
      pendingJourneyNotFound client := by
  have htrimmed : Text.IsTrimmed (front ++ (pendingJourneyNotFound client).toList ++ back)
      (pendingJourneyNotFound client).toList := by
    refine ⟨⟨front, back, rfl, hfront, hback⟩, fun c hc => ?_, fun c hc => ?_⟩
    · rw [toList_pendingJourneyNotFound] at hc
      obtain rfl : '[' = c := Option.some.inj hc
      decide
    · rw [toList_pendingJourneyNotFound, ← List.append_assoc,
        List.getLast?_append_of_ne_nil _ (by decide)] at hc
      obtain rfl : 'd' = c := Option.some.inj hc
      decide
  rw [Text.trim, String.toList_ofList, htrimmed.eq, String.ofList_toList]

theorem pendingJourneyNotFound_ne_empty (client : String) : pendingJourneyNotFound client ≠ "" := by
  intro h
  have hlist := congrArg String.toList h
  rw [toList_pendingJourneyNotFound] at hlist
  cases hlist

end VendorError

/-! ### What a rejection says -/

/-- The text that an object has for a key. -/
def textOf? (said : Value) (key : String) : Option String :=
  (said.get? key).bind Value.text?

/-- What a row tells of a rejection: the first of code and messages that is a text and not blank,
trimmed. -/
def reason? (said : Value) : Option String :=
  ["errorCode", "errorMessage", "message"].findSome? fun key =>
    (Text.nonBlank (textOf? said key)).map Text.trim

theorem memberText?_eq (said : Value) (key : String) :
    VendorError.memberText? said key = (Text.nonBlank (textOf? said key)).map Text.trim := by
  have hmember : VendorError.memberText? said key = (textOf? said key).bind fun s =>
      if Text.trim s = "" then none else some (Text.trim s) :=
    (Option.bind_assoc ..).symm
  rw [hmember]
  cases textOf? said key with
  | none => rfl
  | some s =>
      rw [Option.bind_some, Text.nonBlank_some]
      by_cases hblank : Text.isBlankText s = true
      · rw [if_pos (Text.trim_eq_empty_iff.mpr hblank), if_pos hblank]
        rfl
      · rw [if_neg fun h => hblank (Text.trim_eq_empty_iff.mp h), if_neg hblank]
        rfl

/-- The text of a member is this one, which is not empty, if the text that is there is that,
trimmed. -/
theorem memberText?_eq_some_iff {said : Value} {key t : String} (ht : t ≠ "") :
    VendorError.memberText? said key = some t ↔ (textOf? said key).map Text.trim = some t := by
  rw [memberText?_eq]
  cases textOf? said key with
  | none => rfl
  | some s =>
      rw [Text.nonBlank_some]
      by_cases hblank : Text.isBlankText s = true
      · rw [if_pos hblank, Option.map_some, Text.trim_eq_empty_iff.mpr hblank]
        simpa using ht.symm
      · rw [if_neg hblank]

/-! ### Rows -/

/-- The row that a run makes of the vendor's answer about a client's net worth. -/
def portfolioRow (provider client : String) (answer : Response) : PortfolioRecord :=
  Entity.ofAnswer provider (client, readAnswer NetWorth.ofReport answer)

/-- The row that a run makes of the vendor's answer about a client's pending journey. -/
def journeyRow (provider client : String) (answer : Response) : PendingJourneyRecord :=
  Entity.ofAnswer provider (client, readAnswer Journey.ofReport answer)

/-- What a rejection does to the clients. -/
structure HitsItsClient (answer : Response) (said : Value) : Prop where
  /-- It is a verdict, of which the runs make rows. -/
  portfolioVerdict : isVerdict (readAnswer NetWorth.ofReport answer) = true
  journeyVerdict : isVerdict (readAnswer Journey.ofReport answer) = true
  /-- If its code is the one for a client, with or without blanks around it, a row on pending
  journeys is invalid exactly if it is this client's, and tells the code in any case. -/
  journey : ∀ (c : String) (front back : List Char), (∀ d ∈ front, Text.isBlank d = true) →
    (∀ d ∈ back, Text.isBlank d = true) →
      textOf? said "errorCode" = some
        (String.ofList (front ++ (VendorError.pendingJourneyNotFound c).toList ++ back)) →
        ∀ provider c', ((journeyRow provider c' answer).isInvalid = true ↔ c = c') ∧
          (journeyRow provider c' answer).apiError = some (VendorError.pendingJourneyNotFound c)
  /-- A portfolio row is invalid exactly if the code is the one for unknown clients. -/
  portfolio : ∀ provider client, (portfolioRow provider client answer).isInvalid = true ↔
    (textOf? said "errorCode").map Text.trim = some VendorError.netWorthNotFound
  /-- The rows tell the code, or else a message. -/
  reason : ∀ provider client,
    (portfolioRow provider client answer).apiError = reason? said ∧
      (journeyRow provider client answer).apiError = reason? said

/-- The error of a rejection, by what is said in it. -/
def saidError (status : Nat) (said : Value) : VendorError :=
  .api status (VendorError.memberText? said "errorCode")
    (VendorError.memberText? said "errorMessage" <|> VendorError.memberText? said "message")

variable {ν : Type} {read : Json.Tree → Except Json.ReadError ν} {answer : Response} {body : String}

theorem readAnswer_eq_ofBody (hstatus : isSuccess answer.status = false)
    (hbody : answer.text? = some body) :
    readAnswer read answer = .error (.ofBody answer.status body) := by
  simp only [readAnswer, hbody, readBody, hstatus, Bool.false_eq_true, if_false]

theorem ofBody_of_object {status : Nat} {members : List (String × Value)}
    (h : Value.ofText body = .ok (.object members)) :
    VendorError.ofBody status body = saidError status (.object members) := by
  rw [VendorError.ofBody, h]
  rfl

theorem apiError?_saidError (status : Nat) (said : Value) :
    (saidError status said).apiError? = reason? said := by
  simp only [saidError, VendorError.apiError?, reason?, memberText?_eq, List.findSome?_cons,
    List.findSome?_nil]
  generalize (Text.nonBlank (textOf? said "errorCode")).map Text.trim = code
  generalize (Text.nonBlank (textOf? said "errorMessage")).map Text.trim = message
  generalize (Text.nonBlank (textOf? said "message")).map Text.trim = remark
  cases code <;> cases message <;> cases remark <;> rfl

theorem isNotFound_saidError {ρ : Type} [Entity ν ρ] (status : Nat) (said : Value) (client : String)
    (hcode : Entity.notFoundCode ρ client ≠ "") :
    Entity.isNotFound ρ (saidError status said) client = true ↔
      (textOf? said "errorCode").map Text.trim = some (Entity.notFoundCode ρ client) := by
  rw [← memberText?_eq_some_iff hcode]
  exact beq_iff_eq

section

variable {ρ : Type} [Entity ν ρ] {said : Value} {status : Nat}

/-- A row that is made of a rejection is invalid exactly if the code is the one for its client. -/
theorem isInvalid_of_rejection [LawfulEntity ρ]
    (h : readAnswer read answer = .error (saidError status said)) (provider client : String)
    (hcode : Entity.notFoundCode ρ client ≠ "") :
    Record.isInvalid (Entity.ofAnswer provider (client, readAnswer read answer) : ρ) = true ↔
      (textOf? said "errorCode").map Text.trim = some (Entity.notFoundCode ρ client) := by
  rw [Entity.isInvalid_ofAnswer, h]
  exact isNotFound_saidError status said client hcode

/-- Where a row tells the reason it is given, it tells that of the rejection it is made of. -/
theorem apiError_of_rejection (h : readAnswer read answer = .error (saidError status said))
    (provider client : String)
    (htells : ∀ (isInvalid : Bool) (apiError : Option String),
      Record.apiError (Entity.degraded client provider isInvalid apiError : ρ) = apiError) :
    Record.apiError (Entity.ofAnswer provider (client, readAnswer read answer) : ρ) =
      reason? said := by
  rw [h, ← apiError?_saidError status said]
  exact htells _ _

end

/-- A code that is there is what the rows tell. -/
theorem reason?_of_code {said : Value} {code : String} (hcode : code ≠ "")
    (h : (textOf? said "errorCode").map Text.trim = some code) :
    reason? said = some code := by
  rw [← memberText?_eq_some_iff hcode, memberText?_eq] at h
  rw [reason?, List.findSome?_cons, h]

theorem hitsItsClient {said : Value}
    (h : ∀ {ν : Type} (read : Json.Tree → Except Json.ReadError ν),
      readAnswer read answer = .error (saidError answer.status said)) :
    HitsItsClient answer said where
  portfolioVerdict := by rw [h]; rfl
  journeyVerdict := by rw [h]; rfl
  journey c front back hfront hback hcode provider c' := by
    have htrimmed : (textOf? said "errorCode").map Text.trim =
        some (VendorError.pendingJourneyNotFound c) := by
      rw [hcode, Option.map_some, VendorError.trim_pendingJourneyNotFound c hfront hback]
    have hinvalid : (journeyRow provider c' answer).isInvalid = true ↔
        (textOf? said "errorCode").map Text.trim =
          some (VendorError.pendingJourneyNotFound c') :=
      isInvalid_of_rejection (ρ := PendingJourneyRecord) (h _) provider c'
        (VendorError.pendingJourneyNotFound_ne_empty c')
    have hreason : (journeyRow provider c' answer).apiError = reason? said :=
      apiError_of_rejection (ρ := PendingJourneyRecord) (h _) provider c' fun _ _ => rfl
    rw [hinvalid, hreason, htrimmed, Option.some_inj, VendorError.pendingJourneyNotFound_inj]
    exact ⟨Iff.rfl, reason?_of_code (VendorError.pendingJourneyNotFound_ne_empty c) htrimmed⟩
  portfolio provider client :=
    isInvalid_of_rejection (ρ := PortfolioRecord) (h _) provider client
      (show VendorError.netWorthNotFound ≠ "" by decide)
  reason provider client :=
    ⟨apiError_of_rejection (ρ := PortfolioRecord) (h _) provider client fun _ _ => rfl,
      apiError_of_rejection (ρ := PendingJourneyRecord) (h _) provider client fun _ _ => rfl⟩

/-! ### Every way to write it -/

/-- A body that stands for an object beyond the limits of the reader is unreadable. -/
theorem readAnswer_of_not_fits {members : List (String × Value)}
    (hstatus : isSuccess answer.status = false) (hbody : answer.text? = some body)
    (hsaid : (Value.object members).IsText body)
    (hfits : ¬(Value.object members).Fits Json.maxNesting) :
    readAnswer read answer = .error (.ofUnreadable answer.status body) := by
  have hread := Value.ofText_of_isText hsaid
  rw [if_neg hfits] at hread
  rw [readAnswer_eq_ofBody hstatus hbody, VendorError.ofBody, hread]

/-- **A not-found verdict hits its own client and no other.** An answer is no success, and its body
stands for an object in JSON, however it is written. If the object is within the limits of the
reader, the answer is a verdict: a row on pending journeys is invalid exactly if the code is the one
of its client, a portfolio row exactly if the code is the one for unknown clients, whatever the
messages are, and the rows tell the first of code and messages that is not blank. If it is beyond
them, the answer is unreadable, which is no verdict on any client. -/
theorem not_found_hits_its_client (answer : Response) (body : String)
    (members : List (String × Value)) (hstatus : isSuccess answer.status = false)
    (hbody : answer.text? = some body) (hsaid : (Value.object members).IsText body) :
    ((Value.object members).Fits Json.maxNesting → HitsItsClient answer (.object members)) ∧
      (¬(Value.object members).Fits Json.maxNesting →
        ∀ {ν : Type} (read : Json.Tree → Except Json.ReadError ν),
          readAnswer read answer = .error (.ofUnreadable answer.status body) ∧
            isVerdict (readAnswer read answer) = false) := by
  constructor
  · intro hfits
    have hread := Value.ofText_of_isText hsaid
    rw [if_pos hfits] at hread
    refine hitsItsClient fun read => ?_
    rw [readAnswer_eq_ofBody hstatus hbody, ofBody_of_object hread]
  · intro hfits ν read
    have hunreadable : readAnswer read answer = .error (.ofUnreadable answer.status body) :=
      readAnswer_of_not_fits hstatus hbody hsaid hfits
    exact ⟨hunreadable, by rw [hunreadable]; rfl⟩

theorem text?_encode (status : Nat) (cs : List Char) :
    (⟨status, Text.Utf8.encode cs, true⟩ : Response).text? = some (String.ofList cs) :=
  congrArg some (Text.Utf8.lossy_encode cs)

/-- A client with a quote, a backslash, a bracket, a control and a letter beyond ASCII in its
name. -/
def oddClient : String := "a\"b\\c]\x01é"

/-- A rejection of this client, with blanks around the code and the whole. -/
def oddMembers : List (String × Value) :=
  [("errorCode", .string ("\t" ++ VendorError.pendingJourneyNotFound oddClient ++ " ")),
    ("errorMessage", .string VendorError.netWorthNotFound)]

def oddBody : List Char := [' '] ++ ((Value.object oddMembers).write ++ ['\n'])

def oddAnswer : Response := ⟨404, Text.Utf8.encode oddBody, true⟩

theorem not_found_hits_its_client_oddClient :
    isSuccess oddAnswer.status = false ∧ oddAnswer.text? = some (String.ofList oddBody) ∧
      (Value.object oddMembers).IsText (String.ofList oddBody) ∧
      (Value.object oddMembers).Fits Json.maxNesting ∧
      HitsItsClient oddAnswer (.object oddMembers) ∧
      (journeyRow "upswing" oddClient oddAnswer).isInvalid = true ∧
      (journeyRow "upswing" "c-1" oddAnswer).isInvalid = false := by
  have hstatus : isSuccess oddAnswer.status = false := by decide
  have hbody : oddAnswer.text? = some (String.ofList oddBody) := text?_encode 404 oddBody
  have hnumerals : (Value.object oddMembers).numerals = [] := by decide
  have hsaid : (Value.object oddMembers).IsText (String.ofList oddBody) :=
    Value.isText_padded (by simp [hnumerals]) (by simp [Json.IsPadding]) (by simp [Json.IsPadding])
  have hfits : (Value.object oddMembers).Fits Json.maxNesting := by decide
  have hhits := (not_found_hits_its_client _ _ _ hstatus hbody hsaid).1 hfits
  have hfront : ∀ c ∈ ['\t'], Text.isBlank c = true := List.forall_mem_singleton.mpr (by decide)
  have hback : ∀ c ∈ [' '], Text.isBlank c = true := List.forall_mem_singleton.mpr (by decide)
  have hjourney := hhits.journey oddClient ['\t'] [' '] hfront hback (by decide) "upswing"
  refine ⟨hstatus, hbody, hsaid, hfits, hhits, (hjourney oddClient).1.mpr rfl, ?_⟩
  exact Bool.eq_false_iff.mpr fun h => absurd ((hjourney "c-1").1.mp h) (by decide)

/-- So many arrays inside another one. -/
def nestedArray : Nat → Value
  | 0 => .array []
  | n + 1 => .array [nestedArray n]

/-- A rejection of a client that goes one level too deep. -/
def deepMembers : List (String × Value) :=
  [("errorCode", .string (VendorError.pendingJourneyNotFound "c-1")), ("detail", nestedArray 126)]

def deepBody : List Char := (Value.object deepMembers).write

def deepAnswer : Response := ⟨404, Text.Utf8.encode deepBody, true⟩

/-- The limits have to be taken into account: the vendor rejects a client with the code for it, in
proper JSON, and it is no verdict on the client. -/
theorem deep_rejection_is_no_verdict :
    isSuccess deepAnswer.status = false ∧ deepAnswer.text? = some (String.ofList deepBody) ∧
      (Value.object deepMembers).IsText (String.ofList deepBody) ∧
      textOf? (.object deepMembers) "errorCode" = some (VendorError.pendingJourneyNotFound "c-1") ∧
      isVerdict (readAnswer Journey.ofReport deepAnswer) = false ∧
      (journeyRow "upswing" "c-1" deepAnswer).isInvalid = false ∧
      ¬HitsItsClient deepAnswer (.object deepMembers) := by
  have hstatus : isSuccess deepAnswer.status = false := by decide
  have hbody : deepAnswer.text? = some (String.ofList deepBody) := text?_encode 404 deepBody
  have hnumerals : (Value.object deepMembers).numerals = [] := by decide +kernel
  have hsaid : (Value.object deepMembers).IsText (String.ofList deepBody) := by
    simpa [deepBody] using
      Value.isText_padded (v := .object deepMembers) (by simp [hnumerals]) .nil .nil
  have hfits : ¬(Value.object deepMembers).Fits Json.maxNesting := by decide +kernel
  have hread : readAnswer Journey.ofReport deepAnswer = .error (.ofUnreadable 404 _) :=
    readAnswer_of_not_fits hstatus hbody hsaid hfits
  have hverdict : isVerdict (readAnswer Journey.ofReport deepAnswer) = false := by
    rw [hread]
    rfl
  refine ⟨hstatus, hbody, hsaid, by decide, hverdict, ?_, fun h => ?_⟩
  · rw [journeyRow, hread]
    rfl
  · exact Bool.false_ne_true (hverdict.symm.trans h.journeyVerdict)

end DepositSync
