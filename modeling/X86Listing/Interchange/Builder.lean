import X86Listing.Builder
import X86Listing.Interchange.Program

/-! Interchange form of errors and limits. -/

namespace X86Listing

open Interchange

instance BuildError.interchange : Interchange BuildError where
  schema := .variants [
    ("ConflictingIndirection", .ofFields [("kind", schema Mnemonic)]),
    ("MissingSize", .ofFields [("kind", schema Mnemonic)]),
    ("SizeMismatch", .ofFields [("kind", schema Mnemonic), ("destination", schema Register),
      ("source", schema Register)]),
    ("InvalidCountRegister", .ofFields [("kind", schema Mnemonic), ("register", schema Register)]),
    ("InvalidOperands", .ofFields [("kind", schema Mnemonic), ("detail", schema String)]),
    ("ResourceLimitExceeded", .ofFields [("resource", schema String), ("limit", schema UInt64)])]
  encode
    | .conflictingIndirection kind =>
      .object [("ConflictingIndirection", .object [("kind", encode kind)])]
    | .missingSize kind => .object [("MissingSize", .object [("kind", encode kind)])]
    | .sizeMismatch kind destination source =>
      .object [("SizeMismatch", .object [("kind", encode kind), ("destination", encode destination),
        ("source", encode source)])]
    | .invalidCountRegister kind register =>
      .object [("InvalidCountRegister", .object [("kind", encode kind), ("register", encode register)])]
    | .invalidOperands kind detail =>
      .object [("InvalidOperands", .object [("kind", encode kind), ("detail", encode detail)])]
    | .limitExceeded resource limit =>
      .object [("ResourceLimitExceeded", .object [("resource", encode resource),
        ("limit", encode limit)])]
  ofCanonical?
    | .object [("ConflictingIndirection", tree)] =>
      ofObject? (return .conflictingIndirection (← member "kind")) tree
    | .object [("MissingSize", tree)] => ofObject? (return .missingSize (← member "kind")) tree
    | .object [("SizeMismatch", tree)] =>
      ofObject? (return .sizeMismatch (← member "kind") (← member "destination") (← member "source")) tree
    | .object [("InvalidCountRegister", tree)] =>
      ofObject? (return .invalidCountRegister (← member "kind") (← member "register")) tree
    | .object [("InvalidOperands", tree)] =>
      ofObject? (return .invalidOperands (← member "kind") (← member "detail")) tree
    | .object [("ResourceLimitExceeded", tree)] =>
      ofObject? (return .limitExceeded (← member "resource") (← member "limit")) tree
    | _ => none

instance Limits.interchange : Interchange Limits where
  schema := .ofFields [("max_statements", schema UInt64), ("max_data_members", schema UInt64)]
  encode limits := .object [("max_statements", encode limits.maxStatements),
    ("max_data_members", encode limits.maxDataMembers)]
  ofCanonical? := ofObject? do
    return { maxStatements := ← member "max_statements", maxDataMembers := ← member "max_data_members" }

end X86Listing
