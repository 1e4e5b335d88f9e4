/-!
# The registry of structural error codes

`spec/error-codes-v0.1.json`, read by `packages/core/src/error-codes.mjs`: one constructor for
each registered code, in registry order. `assertKnownErrorCode` rejects a code outside the
registry; a value of this type is always inside it.
-/

namespace TimeProofs.Core

/-- A code of the registry. -/
inductive ErrorCode where
  | inputNotString | expectedString | invalidEscape | invalidUnicodeEscape
  | unpairedHighSurrogate | unpairedLowSurrogate | unescapedControlCharacter
  | unterminatedString | leadingZero | invalidNumber | nonFiniteNumber | expectedComma
  | expectedPropertyName | duplicateProperty | expectedColon | invalidLiteral | unexpectedToken
  | trailingData | jsonParseError | bundleNotObject | topLevelMembersInvalid | payloadNotObject
  | proofsNotArray | payloadMembersInvalid | specVersionUnsupported | profileUnsupported
  | bundleIdInvalid | actionIdInvalid | createdAtInvalid | payloadArrayInvalid
  | payloadExtensionsInvalid | predecessorDigestInvalid | duplicatePredecessorDigest
  | issuerNotObject | issuerMembersInvalid | issuerIdInvalid | issuerDisplayNameInvalid
  | issuerTypeInvalid | issuerIdentifiersInvalid | issuerKeysInvalid | issuerExtensionsInvalid
  | identifierNotObject | identifierMembersInvalid | identifierSchemeInvalid
  | identifierValueInvalid | duplicateIssuerIdentifier | keyNotObject | keyMembersInvalid
  | keyIdInvalid | duplicateKeyId | keyAlgorithmUnsupported | keyFormatUnsupported
  | publicKeyInvalid | keyValidFromInvalid | keyValidUntilInvalid | keyValidityIntervalInvalid
  | keyRevocationRefInvalid | duplicateIssuerId | duplicateObjectId | eventNotObject
  | eventMembersInvalid | eventRequiredMemberInvalid | eventPhaseInvalid | eventTypeInvalid
  | eventStatusInvalid | sourceClassInvalid | eventOccurredAtInvalid | eventRecordedAtInvalid
  | eventRecordedBeforeOccurred | eventIssuerNotFound | eventParentsInvalid
  | duplicateParentDigest | eventEvidenceRefsInvalid | duplicateEventEvidenceRef
  | eventActorInvalid | eventSubjectInvalid | entityRefMembersInvalid | entityTypeInvalid
  | entityIdInvalid | entityDisplayNameInvalid | eventClaimInvalid | eventExtensionsInvalid
  | objectDigestInvalid | objectDigestMismatch | objectDigestCalculationFailed
  | parentDigestInvalid | parentEventNotFound | eventSelfParent | eventEvidenceNotFound
  | evidenceNotObject | evidenceMembersInvalid | evidenceRequiredMemberInvalid
  | evidenceTypeInvalid | mediaTypeInvalid | evidenceIssuerNotFound | contentDigestInvalid
  | evidenceLocatorInvalid | locatorMembersInvalid | locatorSchemeInvalid | locatorValueInvalid
  | locatorRetrievalPolicyInvalid | locatorPolicyConflict | claimScopeInvalid
  | duplicateClaimScope | disclosureInvalid | evidenceExtensionsInvalid | relationshipNotObject
  | relationshipMembersInvalid | relationshipRequiredMemberInvalid | relationshipTypeInvalid
  | relationshipRefInvalid | relationshipSelfReference | relationshipExtensionsInvalid
  | relationshipFromNotFound | relationshipToNotFound | proofNotObject | proofMembersInvalid
  | proofIdInvalid | duplicateProofId | proofTypeUnsupported | proofTargetInvalid
  | proofTargetMembersInvalid | proofTargetTypeInvalid | proofTargetIdRequired
  | proofTargetIdForbidden | proofTargetDigestInvalid | proofCreatedAtInvalid
  | proofIssuerNotFound | verificationMethodInvalid | proofAlgorithmUnsupported
  | proofValueInvalid | proofTargetNotFound | proofTargetDigestMismatch
  | invalidVerificationMethod | proofIssuerMismatch | verificationKeyNotFound
  | unsupportedSignatureAlgorithm | unsupportedPublicKeyFormat | signatureValid
  | signatureInvalid | signatureProcessingError | proofCreatedBeforeKeyValidity
  | proofCreatedAfterKeyValidity | payloadDigestCalculationFailed | noEvents | noEvidence
  | noProofs | eventPhaseStatusInvalid | eventTypePhaseMismatch | eventTypeStatusMismatch
  | eventTypeSourceClassMismatch | eventTypeReservedUnregistered | eventTypeUnregistered
  | relationshipEndpointTypesInvalid | eventSourcePhaseInvalid
  deriving DecidableEq, Repr

/-- The code as the registry spells it. -/
def ErrorCode.text : ErrorCode → String
  | .inputNotString => "INPUT_NOT_STRING"
  | .expectedString => "EXPECTED_STRING"
  | .invalidEscape => "INVALID_ESCAPE"
  | .invalidUnicodeEscape => "INVALID_UNICODE_ESCAPE"
  | .unpairedHighSurrogate => "UNPAIRED_HIGH_SURROGATE"
  | .unpairedLowSurrogate => "UNPAIRED_LOW_SURROGATE"
  | .unescapedControlCharacter => "UNESCAPED_CONTROL_CHARACTER"
  | .unterminatedString => "UNTERMINATED_STRING"
  | .leadingZero => "LEADING_ZERO"
  | .invalidNumber => "INVALID_NUMBER"
  | .nonFiniteNumber => "NON_FINITE_NUMBER"
  | .expectedComma => "EXPECTED_COMMA"
  | .expectedPropertyName => "EXPECTED_PROPERTY_NAME"
  | .duplicateProperty => "DUPLICATE_PROPERTY"
  | .expectedColon => "EXPECTED_COLON"
  | .invalidLiteral => "INVALID_LITERAL"
  | .unexpectedToken => "UNEXPECTED_TOKEN"
  | .trailingData => "TRAILING_DATA"
  | .jsonParseError => "JSON_PARSE_ERROR"
  | .bundleNotObject => "BUNDLE_NOT_OBJECT"
  | .topLevelMembersInvalid => "TOP_LEVEL_MEMBERS_INVALID"
  | .payloadNotObject => "PAYLOAD_NOT_OBJECT"
  | .proofsNotArray => "PROOFS_NOT_ARRAY"
  | .payloadMembersInvalid => "PAYLOAD_MEMBERS_INVALID"
  | .specVersionUnsupported => "SPEC_VERSION_UNSUPPORTED"
  | .profileUnsupported => "PROFILE_UNSUPPORTED"
  | .bundleIdInvalid => "BUNDLE_ID_INVALID"
  | .actionIdInvalid => "ACTION_ID_INVALID"
  | .createdAtInvalid => "CREATED_AT_INVALID"
  | .payloadArrayInvalid => "PAYLOAD_ARRAY_INVALID"
  | .payloadExtensionsInvalid => "PAYLOAD_EXTENSIONS_INVALID"
  | .predecessorDigestInvalid => "PREDECESSOR_DIGEST_INVALID"
  | .duplicatePredecessorDigest => "DUPLICATE_PREDECESSOR_DIGEST"
  | .issuerNotObject => "ISSUER_NOT_OBJECT"
  | .issuerMembersInvalid => "ISSUER_MEMBERS_INVALID"
  | .issuerIdInvalid => "ISSUER_ID_INVALID"
  | .issuerDisplayNameInvalid => "ISSUER_DISPLAY_NAME_INVALID"
  | .issuerTypeInvalid => "ISSUER_TYPE_INVALID"
  | .issuerIdentifiersInvalid => "ISSUER_IDENTIFIERS_INVALID"
  | .issuerKeysInvalid => "ISSUER_KEYS_INVALID"
  | .issuerExtensionsInvalid => "ISSUER_EXTENSIONS_INVALID"
  | .identifierNotObject => "IDENTIFIER_NOT_OBJECT"
  | .identifierMembersInvalid => "IDENTIFIER_MEMBERS_INVALID"
  | .identifierSchemeInvalid => "IDENTIFIER_SCHEME_INVALID"
  | .identifierValueInvalid => "IDENTIFIER_VALUE_INVALID"
  | .duplicateIssuerIdentifier => "DUPLICATE_ISSUER_IDENTIFIER"
  | .keyNotObject => "KEY_NOT_OBJECT"
  | .keyMembersInvalid => "KEY_MEMBERS_INVALID"
  | .keyIdInvalid => "KEY_ID_INVALID"
  | .duplicateKeyId => "DUPLICATE_KEY_ID"
  | .keyAlgorithmUnsupported => "KEY_ALGORITHM_UNSUPPORTED"
  | .keyFormatUnsupported => "KEY_FORMAT_UNSUPPORTED"
  | .publicKeyInvalid => "PUBLIC_KEY_INVALID"
  | .keyValidFromInvalid => "KEY_VALID_FROM_INVALID"
  | .keyValidUntilInvalid => "KEY_VALID_UNTIL_INVALID"
  | .keyValidityIntervalInvalid => "KEY_VALIDITY_INTERVAL_INVALID"
  | .keyRevocationRefInvalid => "KEY_REVOCATION_REF_INVALID"
  | .duplicateIssuerId => "DUPLICATE_ISSUER_ID"
  | .duplicateObjectId => "DUPLICATE_OBJECT_ID"
  | .eventNotObject => "EVENT_NOT_OBJECT"
  | .eventMembersInvalid => "EVENT_MEMBERS_INVALID"
  | .eventRequiredMemberInvalid => "EVENT_REQUIRED_MEMBER_INVALID"
  | .eventPhaseInvalid => "EVENT_PHASE_INVALID"
  | .eventTypeInvalid => "EVENT_TYPE_INVALID"
  | .eventStatusInvalid => "EVENT_STATUS_INVALID"
  | .sourceClassInvalid => "SOURCE_CLASS_INVALID"
  | .eventOccurredAtInvalid => "EVENT_OCCURRED_AT_INVALID"
  | .eventRecordedAtInvalid => "EVENT_RECORDED_AT_INVALID"
  | .eventRecordedBeforeOccurred => "EVENT_RECORDED_BEFORE_OCCURRED"
  | .eventIssuerNotFound => "EVENT_ISSUER_NOT_FOUND"
  | .eventParentsInvalid => "EVENT_PARENTS_INVALID"
  | .duplicateParentDigest => "DUPLICATE_PARENT_DIGEST"
  | .eventEvidenceRefsInvalid => "EVENT_EVIDENCE_REFS_INVALID"
  | .duplicateEventEvidenceRef => "DUPLICATE_EVENT_EVIDENCE_REF"
  | .eventActorInvalid => "EVENT_ACTOR_INVALID"
  | .eventSubjectInvalid => "EVENT_SUBJECT_INVALID"
  | .entityRefMembersInvalid => "ENTITY_REF_MEMBERS_INVALID"
  | .entityTypeInvalid => "ENTITY_TYPE_INVALID"
  | .entityIdInvalid => "ENTITY_ID_INVALID"
  | .entityDisplayNameInvalid => "ENTITY_DISPLAY_NAME_INVALID"
  | .eventClaimInvalid => "EVENT_CLAIM_INVALID"
  | .eventExtensionsInvalid => "EVENT_EXTENSIONS_INVALID"
  | .objectDigestInvalid => "OBJECT_DIGEST_INVALID"
  | .objectDigestMismatch => "OBJECT_DIGEST_MISMATCH"
  | .objectDigestCalculationFailed => "OBJECT_DIGEST_CALCULATION_FAILED"
  | .parentDigestInvalid => "PARENT_DIGEST_INVALID"
  | .parentEventNotFound => "PARENT_EVENT_NOT_FOUND"
  | .eventSelfParent => "EVENT_SELF_PARENT"
  | .eventEvidenceNotFound => "EVENT_EVIDENCE_NOT_FOUND"
  | .evidenceNotObject => "EVIDENCE_NOT_OBJECT"
  | .evidenceMembersInvalid => "EVIDENCE_MEMBERS_INVALID"
  | .evidenceRequiredMemberInvalid => "EVIDENCE_REQUIRED_MEMBER_INVALID"
  | .evidenceTypeInvalid => "EVIDENCE_TYPE_INVALID"
  | .mediaTypeInvalid => "MEDIA_TYPE_INVALID"
  | .evidenceIssuerNotFound => "EVIDENCE_ISSUER_NOT_FOUND"
  | .contentDigestInvalid => "CONTENT_DIGEST_INVALID"
  | .evidenceLocatorInvalid => "EVIDENCE_LOCATOR_INVALID"
  | .locatorMembersInvalid => "LOCATOR_MEMBERS_INVALID"
  | .locatorSchemeInvalid => "LOCATOR_SCHEME_INVALID"
  | .locatorValueInvalid => "LOCATOR_VALUE_INVALID"
  | .locatorRetrievalPolicyInvalid => "LOCATOR_RETRIEVAL_POLICY_INVALID"
  | .locatorPolicyConflict => "LOCATOR_POLICY_CONFLICT"
  | .claimScopeInvalid => "CLAIM_SCOPE_INVALID"
  | .duplicateClaimScope => "DUPLICATE_CLAIM_SCOPE"
  | .disclosureInvalid => "DISCLOSURE_INVALID"
  | .evidenceExtensionsInvalid => "EVIDENCE_EXTENSIONS_INVALID"
  | .relationshipNotObject => "RELATIONSHIP_NOT_OBJECT"
  | .relationshipMembersInvalid => "RELATIONSHIP_MEMBERS_INVALID"
  | .relationshipRequiredMemberInvalid => "RELATIONSHIP_REQUIRED_MEMBER_INVALID"
  | .relationshipTypeInvalid => "RELATIONSHIP_TYPE_INVALID"
  | .relationshipRefInvalid => "RELATIONSHIP_REF_INVALID"
  | .relationshipSelfReference => "RELATIONSHIP_SELF_REFERENCE"
  | .relationshipExtensionsInvalid => "RELATIONSHIP_EXTENSIONS_INVALID"
  | .relationshipFromNotFound => "RELATIONSHIP_FROM_NOT_FOUND"
  | .relationshipToNotFound => "RELATIONSHIP_TO_NOT_FOUND"
  | .proofNotObject => "PROOF_NOT_OBJECT"
  | .proofMembersInvalid => "PROOF_MEMBERS_INVALID"
  | .proofIdInvalid => "PROOF_ID_INVALID"
  | .duplicateProofId => "DUPLICATE_PROOF_ID"
  | .proofTypeUnsupported => "PROOF_TYPE_UNSUPPORTED"
  | .proofTargetInvalid => "PROOF_TARGET_INVALID"
  | .proofTargetMembersInvalid => "PROOF_TARGET_MEMBERS_INVALID"
  | .proofTargetTypeInvalid => "PROOF_TARGET_TYPE_INVALID"
  | .proofTargetIdRequired => "PROOF_TARGET_ID_REQUIRED"
  | .proofTargetIdForbidden => "PROOF_TARGET_ID_FORBIDDEN"
  | .proofTargetDigestInvalid => "PROOF_TARGET_DIGEST_INVALID"
  | .proofCreatedAtInvalid => "PROOF_CREATED_AT_INVALID"
  | .proofIssuerNotFound => "PROOF_ISSUER_NOT_FOUND"
  | .verificationMethodInvalid => "VERIFICATION_METHOD_INVALID"
  | .proofAlgorithmUnsupported => "PROOF_ALGORITHM_UNSUPPORTED"
  | .proofValueInvalid => "PROOF_VALUE_INVALID"
  | .proofTargetNotFound => "PROOF_TARGET_NOT_FOUND"
  | .proofTargetDigestMismatch => "PROOF_TARGET_DIGEST_MISMATCH"
  | .invalidVerificationMethod => "INVALID_VERIFICATION_METHOD"
  | .proofIssuerMismatch => "PROOF_ISSUER_MISMATCH"
  | .verificationKeyNotFound => "VERIFICATION_KEY_NOT_FOUND"
  | .unsupportedSignatureAlgorithm => "UNSUPPORTED_SIGNATURE_ALGORITHM"
  | .unsupportedPublicKeyFormat => "UNSUPPORTED_PUBLIC_KEY_FORMAT"
  | .signatureValid => "SIGNATURE_VALID"
  | .signatureInvalid => "SIGNATURE_INVALID"
  | .signatureProcessingError => "SIGNATURE_PROCESSING_ERROR"
  | .proofCreatedBeforeKeyValidity => "PROOF_CREATED_BEFORE_KEY_VALIDITY"
  | .proofCreatedAfterKeyValidity => "PROOF_CREATED_AFTER_KEY_VALIDITY"
  | .payloadDigestCalculationFailed => "PAYLOAD_DIGEST_CALCULATION_FAILED"
  | .noEvents => "NO_EVENTS"
  | .noEvidence => "NO_EVIDENCE"
  | .noProofs => "NO_PROOFS"
  | .eventPhaseStatusInvalid => "EVENT_PHASE_STATUS_INVALID"
  | .eventTypePhaseMismatch => "EVENT_TYPE_PHASE_MISMATCH"
  | .eventTypeStatusMismatch => "EVENT_TYPE_STATUS_MISMATCH"
  | .eventTypeSourceClassMismatch => "EVENT_TYPE_SOURCE_CLASS_MISMATCH"
  | .eventTypeReservedUnregistered => "EVENT_TYPE_RESERVED_UNREGISTERED"
  | .eventTypeUnregistered => "EVENT_TYPE_UNREGISTERED"
  | .relationshipEndpointTypesInvalid => "RELATIONSHIP_ENDPOINT_TYPES_INVALID"
  | .eventSourcePhaseInvalid => "EVENT_SOURCE_PHASE_INVALID"

end TimeProofs.Core
