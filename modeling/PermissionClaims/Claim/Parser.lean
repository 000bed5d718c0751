import PermissionClaims.Claim.Parse
import PermissionClaims.Config.Basic

/-!
# Parsers of a dialect

A parser reads claims in the dialect that a configuration asks for.
-/

namespace PermissionClaims

structure ClaimParser where
  dialect : Dialect := .strict
  deriving DecidableEq, Repr

namespace ClaimParser

open Log

def ofConfig (c : Config) : ClaimParser :=
  ⟨Dialect.ofFlag c.allowTrailingDot⟩

def isValid (p : ClaimParser) (v : Value) : Bool :=
  Grammar.isValid p.dialect v

def parse (p : ClaimParser) (v : Value) : Traced (Except ClaimFault Claim) :=
  Claim.parse p.dialect v

def parseMany (p : ClaimParser) (texts : Value) :
    Traced (Except NoElements (Claim.Reading (List Claim))) :=
  Claim.parseElements p.dialect texts

def render (p : ClaimParser) : String :=
  "ClaimParser(allow_trailing_dot=" ++ Config.showFlag p.dialect.allowsTrailingDot ++ ")"

end ClaimParser

end PermissionClaims
