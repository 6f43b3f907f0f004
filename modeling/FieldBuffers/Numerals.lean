/-!
Powers and sums of numbers are those of the core library, whatever other structure on numbers is in
scope.
-/

attribute [instance (2000), default_instance 20000] instPowNat

attribute [instance (2000)] Zero.ofOfNat0
