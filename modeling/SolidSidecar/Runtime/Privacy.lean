import SolidSidecar.Go.Order

/-!
# Privacy levels

A level is a string, and the layers of the runtime compare levels with the operators of strings.
-/

namespace Runtime
open Go

abbrev PrivacyLevel := Str

def privacyLevelPublic : PrivacyLevel := "public"

def privacyLevelMetadata : PrivacyLevel := "metadata"

def privacyLevelSensitive : PrivacyLevel := "sensitive"

def privacyLevelPrivate : PrivacyLevel := "private"

def below (min level : PrivacyLevel) : Bool := min ≠ [] && Str.less level min

def above (max level : PrivacyLevel) : Bool := max ≠ [] && Str.less max level

end Runtime
