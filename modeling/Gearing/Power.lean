/-!
Powers are those of the core library, also next to an algebra library that brings its own.
-/

attribute [instance (high), default_instance 10001] instPowNat
