import PackageScaffold.Catalogue.Line

/-!
# Dart sources

Libraries, tests and examples of a project.
-/

namespace PackageScaffold.Catalogue

/-- The public library of a package. -/
def library : String :=
  lines [
    "/// " ++ var "description",
    "library " ++ var "project_name" ++ ";",
    "",
    opens "exports",
    "export '" ++ var "export" ++ "';",
    closes "exports"
  ]

/-- The class that the library of a package exports. -/
def baseClass : String :=
  lines [
    "/// Base class for " ++ var "project_name" ++ ".",
    "class " ++ var "pascal_name" ++ " \x7b",
    "  /// Creates a new instance of [" ++ var "pascal_name" ++ "].",
    "  const " ++ var "pascal_name" ++ "();",
    "",
    "  /// Example method that returns a greeting.",
    "  String hello() \x7b",
    "    return 'Hello from " ++ var "project_name" ++ "!';",
    "  \x7d",
    "\x7d"
  ]

/-- The entry point of an application. -/
def applicationMain : String :=
  lines [
    "import 'package:flutter/material.dart';",
    "",
    "import 'package:" ++ var "project_name" ++ "/" ++ var "project_name" ++ ".dart';",
    "",
    "void main() \x7b",
    "  runApp(const " ++ var "pascal_name" ++ "App());",
    "\x7d"
  ]

/-- The widgets of an application. -/
def applicationLibrary : String :=
  lines [
    "/// " ++ var "description",
    "library " ++ var "project_name" ++ ";",
    "",
    "import 'package:flutter/material.dart';",
    "",
    "/// Root widget of " ++ var "project_name" ++ ".",
    "class " ++ var "pascal_name" ++ "App extends StatelessWidget \x7b",
    "  /// Creates the root widget.",
    "  const " ++ var "pascal_name" ++ "App(\x7bsuper.key\x7d);",
    "",
    "  @override",
    "  Widget build(BuildContext context) \x7b",
    "    return MaterialApp(",
    "      title: '" ++ var "pascal_name" ++ "',",
    "      theme: ThemeData(",
    "        colorScheme: ColorScheme.fromSeed(seedColor: Colors.deepPurple),",
    "        useMaterial3: true,",
    "      ),",
    "      home: const HomePage(title: '" ++ var "pascal_name" ++ " Home Page'),",
    "    );",
    "  \x7d",
    "\x7d",
    "",
    "/// Home page with a simple counter.",
    "class HomePage extends StatefulWidget \x7b",
    "  /// Creates the home page.",
    "  const HomePage(\x7bsuper.key, required this.title\x7d);",
    "",
    "  /// Title shown in the app bar.",
    "  final String title;",
    "",
    "  @override",
    "  State<HomePage> createState() => _HomePageState();",
    "\x7d",
    "",
    "class _HomePageState extends State<HomePage> \x7b",
    "  int _counter = 0;",
    "",
    "  void _incrementCounter() \x7b",
    "    setState(() \x7b",
    "      _counter++;",
    "    \x7d);",
    "  \x7d",
    "",
    "  @override",
    "  Widget build(BuildContext context) \x7b",
    "    return Scaffold(",
    "      appBar: AppBar(",
    "        backgroundColor: Theme.of(context).colorScheme.inversePrimary,",
    "        title: Text(widget.title),",
    "      ),",
    "      body: Center(",
    "        child: Column(",
    "          mainAxisAlignment: MainAxisAlignment.center,",
    "          children: <Widget>[",
    "            const Text('You have pushed the button this many times:'),",
    "            Text(",
    "              '$_counter',",
    "              style: Theme.of(context).textTheme.headlineMedium,",
    "            ),",
    "          ],",
    "        ),",
    "      ),",
    "      floatingActionButton: FloatingActionButton(",
    "        onPressed: _incrementCounter,",
    "        tooltip: 'Increment',",
    "        child: const Icon(Icons.add),",
    "      ),",
    "    );",
    "  \x7d",
    "\x7d"
  ]

/-- The public library of a plugin. -/
def pluginLibrary : String :=
  lines [
    "/// " ++ var "description",
    "library " ++ var "project_name" ++ ";",
    "",
    "import 'src/" ++ var "project_name" ++ "_platform_interface.dart';",
    "",
    "export 'src/" ++ var "project_name" ++ "_method_channel.dart';",
    "export 'src/" ++ var "project_name" ++ "_platform_interface.dart';",
    "",
    "/// Entry point of the " ++ var "project_name" ++ " plugin.",
    "class " ++ var "pascal_name" ++ " \x7b",
    "  /// Returns the version of the host platform.",
    "  Future<String?> getPlatformVersion() \x7b",
    "    return " ++ var "pascal_name" ++ "Platform.instance.getPlatformVersion();",
    "  \x7d",
    "\x7d"
  ]

/-- The interface that every platform of a plugin implements. -/
def platformInterface : String :=
  lines [
    "import 'package:plugin_platform_interface/plugin_platform_interface.dart';",
    "",
    "import '" ++ var "project_name" ++ "_method_channel.dart';",
    "",
    "/// The interface that implementations of " ++ var "project_name" ++ " must implement.",
    "abstract class " ++ var "pascal_name" ++ "Platform extends PlatformInterface \x7b",
    "  /// Constructs a " ++ var "pascal_name" ++ "Platform.",
    "  " ++ var "pascal_name" ++ "Platform() : super(token: _token);",
    "",
    "  static final Object _token = Object();",
    "",
    "  static " ++ var "pascal_name" ++ "Platform _instance = MethodChannel" ++
      var "pascal_name" ++ "();",
    "",
    "  /// The default instance of [" ++ var "pascal_name" ++ "Platform] to use.",
    "  static " ++ var "pascal_name" ++ "Platform get instance => _instance;",
    "",
    "  /// Platform-specific implementations set this with their own class that",
    "  /// extends [" ++ var "pascal_name" ++ "Platform] when they register themselves.",
    "  static set instance(" ++ var "pascal_name" ++ "Platform instance) \x7b",
    "    PlatformInterface.verifyToken(instance, _token);",
    "    _instance = instance;",
    "  \x7d",
    "",
    "  /// Returns the version of the host platform.",
    "  Future<String?> getPlatformVersion() \x7b",
    "    throw UnimplementedError('getPlatformVersion() has not been implemented.');",
    "  \x7d",
    "\x7d"
  ]

/-- The implementation of a plugin that calls native code. -/
def methodChannel : String :=
  lines [
    "import 'package:flutter/foundation.dart';",
    "import 'package:flutter/services.dart';",
    "",
    "import '" ++ var "project_name" ++ "_platform_interface.dart';",
    "",
    "/// An implementation of [" ++ var "pascal_name" ++
      "Platform] that uses method channels.",
    "class MethodChannel" ++ var "pascal_name" ++ " extends " ++ var "pascal_name" ++
      "Platform \x7b",
    "  /// The method channel used to interact with the native platform.",
    "  @visibleForTesting",
    "  final methodChannel = const MethodChannel('" ++ var "project_name" ++ "');",
    "",
    "  @override",
    "  Future<String?> getPlatformVersion() async \x7b",
    "    final version = await methodChannel.invokeMethod<String>('getPlatformVersion');",
    "    return version;",
    "  \x7d",
    "\x7d"
  ]

/-- The first test of a new project. -/
def test : String :=
  lines [
    opens "is_flutter",
    "import 'package:flutter_test/flutter_test.dart';",
    closes "is_flutter",
    opens "is_dart",
    "import 'package:test/test.dart';",
    closes "is_dart",
    "import 'package:" ++ var "project_name" ++ "/" ++ var "project_name" ++ ".dart';",
    "",
    "void main() \x7b",
    "  group('" ++ var "pascal_name" ++ "', () \x7b",
    opens "is_app",
    "    testWidgets('starts the counter at zero', (tester) async \x7b",
    "      await tester.pumpWidget(const " ++ var "pascal_name" ++ "App());",
    "      expect(find.text('0'), findsOneWidget);",
    "    \x7d);",
    closes "is_app",
    opens "is_plugin",
    "    test('uses the method channel implementation by default', () \x7b",
    "      expect(" ++ var "pascal_name" ++ "Platform.instance, isA<MethodChannel" ++
      var "pascal_name" ++ ">());",
    "    \x7d);",
    closes "is_plugin",
    opens "is_dart",
    "    test('hello returns a greeting', () \x7b",
    "      expect(const " ++ var "pascal_name" ++ "().hello(), contains('" ++
      var "project_name" ++ "'));",
    "    \x7d);",
    closes "is_dart",
    "  \x7d);",
    "\x7d"
  ]

/-- A test that stands in until there is a real one. -/
def testPlaceholder : String :=
  lines [
    opens "is_flutter",
    "import 'package:flutter_test/flutter_test.dart';",
    closes "is_flutter",
    opens "is_dart",
    "import 'package:test/test.dart';",
    closes "is_dart",
    "import 'package:" ++ var "project_name" ++ "/" ++ var "project_name" ++ ".dart';",
    "",
    "void main() \x7b",
    "  group('" ++ var "project_name" ++ "', () \x7b",
    "    test('placeholder', () \x7b",
    "      expect(true, isTrue);",
    "    \x7d);",
    "  \x7d);",
    "\x7d"
  ]

/-- An application that uses the plugin. -/
def pluginExample : String :=
  lines [
    "import 'package:flutter/material.dart';",
    "import 'package:" ++ var "project_name" ++ "/" ++ var "project_name" ++ ".dart';",
    "",
    "void main() \x7b",
    "  runApp(const ExampleApp());",
    "\x7d",
    "",
    "/// Example application for the " ++ var "project_name" ++ " plugin.",
    "class ExampleApp extends StatefulWidget \x7b",
    "  const ExampleApp(\x7bsuper.key\x7d);",
    "",
    "  @override",
    "  State<ExampleApp> createState() => _ExampleAppState();",
    "\x7d",
    "",
    "class _ExampleAppState extends State<ExampleApp> \x7b",
    "  final _plugin = " ++ var "pascal_name" ++ "();",
    "  String _platformVersion = 'Unknown';",
    "",
    "  @override",
    "  void initState() \x7b",
    "    super.initState();",
    "    _loadPlatformVersion();",
    "  \x7d",
    "",
    "  Future<void> _loadPlatformVersion() async \x7b",
    "    final version = await _plugin.getPlatformVersion() ?? 'Unknown platform version';",
    "    if (!mounted) return;",
    "    setState(() \x7b",
    "      _platformVersion = version;",
    "    \x7d);",
    "  \x7d",
    "",
    "  @override",
    "  Widget build(BuildContext context) \x7b",
    "    return MaterialApp(",
    "      home: Scaffold(",
    "        appBar: AppBar(title: const Text('" ++ var "project_name" ++ " example')),",
    "        body: Center(child: Text('Running on: $_platformVersion')),",
    "      ),",
    "    );",
    "  \x7d",
    "\x7d"
  ]

/-- What to do with the example application. -/
def pluginExampleReadme : String :=
  lines [
    "# " ++ var "project_name" ++ "_example",
    "",
    "Demonstrates how to use the " ++ var "project_name" ++ " plugin.",
    "",
    "## Getting started",
    "",
    "Run `flutter run` from this directory."
  ]

/-- A program that uses the package. -/
def packageExample : String :=
  lines [
    "import 'package:" ++ var "project_name" ++ "/" ++ var "project_name" ++ ".dart';",
    "",
    "void main() \x7b",
    "  const " ++ var "camel_name" ++ " = " ++ var "pascal_name" ++ "();",
    "  print(" ++ var "camel_name" ++ ".hello());",
    "\x7d"
  ]

end PackageScaffold.Catalogue
