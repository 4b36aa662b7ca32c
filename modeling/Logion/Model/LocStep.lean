import Logion.Model.LocRequest

/-!
# LocStep — the operations of a LOC as one step function

`LocOp` lists the public operations of `LocRequestAggregateRoot` that change the LOC, from the HTTP
side and from the chain side, and the two deletion guards of `LocRequestRepository`.  `LocRequest.step`
runs one of them; a run is `Fallible.run LocRequest.step`, in which an operation that throws leaves
the LOC as it was.
-/

namespace Logion

/-- An operation on a LOC.  `now` is the time of the call where the code asks the clock. -/
inductive LocOp
  | submit
  | reject (reason : String) (rejectedOn : Moment)
  | rework
  | accept (decisionOn : Moment)
  | preOpen (autoPublish : Bool)
  | cancelPreOpen (autoPublish : Bool)
  | openLoc (createdOn : Moment) (items : LocItems)
  | preClose (autoAck : Bool)
  | cancelPreClose (autoAck : Bool)
  | close (timestamp : Moment)
  | preVoid (reason : String)
  | cancelPreVoid
  | voidLoc (timestamp : Moment)
  | addFile (hash : Hash) (submitter : AccountId) (data : FileData)
      (submissionType : SubmissionType) (now : Moment)
  | addMetadataItem (submitter : AccountId) (name value : String)
      (submissionType : SubmissionType) (now : Moment)
  | addLink (target : UUID) (submitter : AccountId) (nature : String)
      (submissionType : SubmissionType) (now : Moment)
  | removeItem (k : ItemKind) (remover : AccountId) (key : String)
  | requestItemReview (k : ItemKind) (key : String)
  | acceptItem (k : ItemKind) (key : String) (now : Moment)
  | rejectItem (k : ItemKind) (key reason : String) (now : Moment)
  | prePublishOrAcknowledgeItem (k : ItemKind) (key : String) (contributor : AccountId)
  | cancelPrePublishOrAcknowledgeItem (k : ItemKind) (key : String) (contributor : AccountId)
  | preAcknowledgeItem (k : ItemKind) (key : String) (contributor : AccountId)
      (acknowledgedOn : Option Moment)
  | cancelPreAcknowledgeItem (k : ItemKind) (key : String) (contributor : AccountId)
  | setItemAddedOn (k : ItemKind) (key : String) (addedOn : Moment)
  | setFileFees (hash : Hash) (fees : StorageFees) (storageFeePaidBy : Option String)
  | setMetadataItemFee (nameHash : Hash) (inclusionFee : ℕ)
  | setLinkFee (target : UUID) (inclusionFee : ℕ)
  | updateFileContent (hash : Hash) (name : String) (size : ℕ) (contentType cid : Option String)
  | setFileRestrictedDelivery (hash : Hash) (restrictedDelivery : Bool)
  | initIdenfyVerification (authToken scanRef : String)
  | updateIdenfyVerification (final : Bool) (overall : IdenfyStatus) (rawJson : String)
  | addSecret (name value : String)
  | removeSecret (name : String)
  | deleteDraftRejectedOrAccepted
  | deleteOpen

namespace LocRequest

variable [Hashing]

/-- One operation.  A deletion guard that accepts leaves the instance unchanged: the rows are then
deleted by the repository. -/
def step (l : LocRequest) : LocOp → Except Err LocRequest
  | .submit => l.submit
  | .reject reason rejectedOn => l.reject reason rejectedOn
  | .rework => l.rework
  | .accept decisionOn => l.accept decisionOn
  | .preOpen autoPublish => l.preOpen autoPublish
  | .cancelPreOpen autoPublish => l.cancelPreOpen autoPublish
  | .openLoc createdOn items => l.openLoc createdOn items
  | .preClose autoAck => l.preClose autoAck
  | .cancelPreClose autoAck => l.cancelPreClose autoAck
  | .close timestamp => .ok (l.close timestamp)
  | .preVoid reason => l.preVoid reason
  | .cancelPreVoid => l.cancelPreVoid
  | .voidLoc timestamp => .ok (l.voidLoc timestamp)
  | .addFile hash submitter data submissionType now =>
    l.addFile hash submitter data submissionType now
  | .addMetadataItem submitter name value submissionType now =>
    l.addMetadataItem submitter name value submissionType now
  | .addLink target submitter nature submissionType now =>
    l.addLink target submitter nature submissionType now
  | .removeItem k remover key => l.removeItem k remover key
  | .requestItemReview k key => l.requestItemReview k key
  | .acceptItem k key now => l.acceptItem k key now
  | .rejectItem k key reason now => l.rejectItem k key reason now
  | .prePublishOrAcknowledgeItem k key contributor =>
    l.prePublishOrAcknowledgeItem k key contributor
  | .cancelPrePublishOrAcknowledgeItem k key contributor =>
    l.cancelPrePublishOrAcknowledgeItem k key contributor
  | .preAcknowledgeItem k key contributor acknowledgedOn =>
    l.preAcknowledgeItem k key contributor acknowledgedOn
  | .cancelPreAcknowledgeItem k key contributor => l.cancelPreAcknowledgeItem k key contributor
  | .setItemAddedOn k key addedOn => .ok (l.setItemAddedOn k key addedOn)
  | .setFileFees hash fees storageFeePaidBy => l.setFileFees hash fees storageFeePaidBy
  | .setMetadataItemFee nameHash inclusionFee => .ok (l.setMetadataItemFee nameHash inclusionFee)
  | .setLinkFee target inclusionFee => .ok (l.setLinkFee target inclusionFee)
  | .updateFileContent hash name size contentType cid =>
    l.updateFileContent hash name size contentType cid
  | .setFileRestrictedDelivery hash restrictedDelivery =>
    l.setFileRestrictedDelivery hash restrictedDelivery
  | .initIdenfyVerification authToken scanRef => .ok (l.initIdenfyVerification authToken scanRef)
  | .updateIdenfyVerification final overall rawJson =>
    l.updateIdenfyVerification final overall rawJson
  | .addSecret name value => l.addSecret name value
  | .removeSecret name => l.removeSecret name
  | .deleteDraftRejectedOrAccepted => do
    l.deleteDraftRejectedOrAccepted
    return l
  | .deleteOpen => do
    l.deleteOpen
    return l

end LocRequest

end Logion
